import Gumnut.Debugger.Run
import Gumnut.Program.Storage
import Gumnut.Proofs.ControlFlow
import Gumnut.Proofs.ListedLines
import Gumnut.Proofs.Words
import Gumnut.Proofs.Steering
import Gumnut.Proofs.Bounds
import Gumnut.Proofs.Calls
import Gumnut.Proofs.Digits
import Gumnut.Proofs.Formats
import Gumnut.Proofs.StoredImages
import Gumnut.Proofs.Requests
import Gumnut.Proofs.Events
import Gumnut.Proofs.Exceptions
import Gumnut.Proofs.Transparency
import Gumnut.Proofs.Bindings
import Gumnut.Proofs.Halting
import Gumnut.Proofs.Fitting
import Gumnut.Proofs.Sections
import Gumnut.Proofs.Grammar
import Gumnut.Proofs.LineLocations
import Gumnut.Proofs.Addressing
import Gumnut.Proofs.Reassembly
import Gumnut.Proofs.FirstFault
import Gumnut.Proofs.FaultEffects
import Gumnut.Proofs.RunLoops
import Gumnut.Proofs.Effects
import Gumnut.Proofs.Literals
import Gumnut.Proofs.Reprinting
import Gumnut.Proofs.Comments
import Gumnut.Proofs.ErrorPlaces
import Gumnut.Proofs.HexLines
import Gumnut.Proofs.WideArithmetic
import Gumnut.Proofs.Relocation
import Gumnut.Proofs.RunningOff
import Gumnut.Proofs.Shifts
import Gumnut.Proofs.Loading
import Gumnut.Proofs.Pointers
import Gumnut.Proofs.BoundedStack
