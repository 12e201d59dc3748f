/-!
# Memory accesses

A record of the accesses to the data memory and the I/O registers: for each address that was
touched, whether it was read, written, and written with another value, in the order of the
addresses. The address of the latest access to the data memory is kept apart, and stays when the
record is cleared.
-/
set_option autoImplicit false

namespace Gumnut

inductive Space where
  | data
  | io
  deriving DecidableEq, Repr

structure AccessSet where
  read : Bool := false
  written : Bool := false
  modified : Bool := false
  deriving DecidableEq, Repr

def boolText (b : Bool) : String :=
  if b then "true" else "false"

namespace AccessSet

def accessed (set : AccessSet) : Bool :=
  set.read || set.written || set.modified

def union (set other : AccessSet) : AccessSet where
  read := set.read || other.read
  written := set.written || other.written
  modified := set.modified || other.modified

def text (set : AccessSet) : String :=
  "AccessFlags \x7b accessed: " ++ boolText set.accessed ++ ", read: " ++ boolText set.read ++
    ", written: " ++ boolText set.written ++ ", modified: " ++ boolText set.modified ++ " \x7d"

end AccessSet

structure Place where
  space : Space
  address : UInt8
  deriving DecidableEq, Repr

namespace Place

/-- The position of a place in the order of places: data before I/O, then by address. -/
def rank (place : Place) : Nat :=
  match place.space with
  | .data => place.address.toNat
  | .io => 256 + place.address.toNat

theorem rank_inj {place other : Place} : place.rank = other.rank ↔ place = other := by
  obtain ⟨space, address⟩ := place
  obtain ⟨space', address'⟩ := other
  have bound := address.toNat_lt
  have bound' := address'.toNat_lt
  cases space <;> cases space' <;>
    simp only [rank, Nat.add_left_cancel_iff, UInt8.toNat_inj, Place.mk.injEq, true_and,
      reduceCtorEq, false_and, iff_false] <;> omega

end Place

namespace AccessLog

def Ascending (entries : List (Place × AccessSet)) : Prop :=
  entries.Pairwise fun entry later => entry.1.rank < later.1.rank

def enter (place : Place) (set : AccessSet) : List (Place × AccessSet) → List (Place × AccessSet)
  | [] => [(place, set)]
  | (other, known) :: rest =>
    if place = other then (other, known.union set) :: rest
    else if place.rank < other.rank then (place, set) :: (other, known) :: rest
    else (other, known) :: enter place set rest

theorem fst_mem_enter {place other : Place} {set found : AccessSet}
    {entries : List (Place × AccessSet)} (member : (other, found) ∈ enter place set entries) :
    other = place ∨ ∃ known, (other, known) ∈ entries := by
  induction entries with
  | nil =>
    simp only [enter, List.mem_singleton, Prod.mk.injEq] at member
    exact .inl member.1
  | cons entry rest ih =>
    obtain ⟨first, known⟩ := entry
    simp only [enter] at member
    split at member
    · rcases List.mem_cons.mp member with same | later
      · exact .inr ⟨known, by simp_all⟩
      · exact .inr ⟨found, List.mem_cons_of_mem _ later⟩
    · split at member
      · rcases List.mem_cons.mp member with same | later
        · exact .inl (by simp_all)
        · exact .inr ⟨found, later⟩
      · rcases List.mem_cons.mp member with same | later
        · exact .inr ⟨known, by simp_all⟩
        · rcases ih later with same | ⟨known, old⟩
          · exact .inl same
          · exact .inr ⟨known, List.mem_cons_of_mem _ old⟩

theorem ascending_enter (place : Place) (set : AccessSet) {entries : List (Place × AccessSet)}
    (ascending : Ascending entries) : Ascending (enter place set entries) := by
  induction entries with
  | nil => simp [enter, Ascending]
  | cons entry rest ih =>
    obtain ⟨first, known⟩ := entry
    obtain ⟨below, order⟩ := List.pairwise_cons.mp ascending
    simp only [enter]
    split
    · exact List.pairwise_cons.mpr ⟨below, order⟩
    · split
      · rename_i before
        refine List.pairwise_cons.mpr ⟨fun later member => ?_, ascending⟩
        rcases List.mem_cons.mp member with rfl | behind
        · exact before
        · exact Nat.lt_trans before (below later behind)
      · rename_i other notBefore
        refine List.pairwise_cons.mpr ⟨fun later member => ?_, ih order⟩
        obtain ⟨place', found⟩ := later
        rcases fst_mem_enter member with rfl | ⟨old, behind⟩
        · have apart : place'.rank ≠ first.rank := fun same => other (Place.rank_inj.mp same)
          simp only
          omega
        · exact below (place', old) behind

end AccessLog

/-- The accesses since the record was cleared, and the latest address in the data memory. -/
structure AccessLog where
  entries : List (Place × AccessSet) := []
  lastData : Option UInt8 := none
  ascending : AccessLog.Ascending entries := by exact List.Pairwise.nil
  deriving DecidableEq

namespace AccessLog

def empty : AccessLog := {}

def add (log : AccessLog) (place : Place) (set : AccessSet) : AccessLog where
  entries := enter place set log.entries
  lastData := match place.space with
    | .data => some place.address
    | .io => log.lastData
  ascending := ascending_enter place set log.ascending

def get (log : AccessLog) (place : Place) : AccessSet :=
  (log.entries.lookup place).getD {}

/-- Forgets the accesses, but not the latest address in the data memory. -/
def clear (log : AccessLog) : AccessLog where
  lastData := log.lastData

/-- Takes the accesses out of the record, in the order of their places. -/
def take (log : AccessLog) : List (Place × AccessSet) × AccessLog :=
  (log.entries, log.clear)

theorem get_clear (log : AccessLog) (place : Place) : log.clear.get place = {} := rfl

theorem lookup_eq_none_of_lt {place : Place} {entries : List (Place × AccessSet)}
    (before : ∀ entry ∈ entries, place.rank < entry.1.rank) : entries.lookup place = none := by
  induction entries with
  | nil => rfl
  | cons entry rest ih =>
    have apart : place ≠ entry.1 := fun same => by
      have := before entry (by simp)
      simp [same] at this
    rw [List.lookup_cons, beq_eq_false_iff_ne.mpr apart]
    exact ih fun later member => before later (by simp [member])

theorem lookup_enter (place other : Place) (set : AccessSet) {entries : List (Place × AccessSet)}
    (ascending : Ascending entries) :
    (enter place set entries).lookup other =
      if other = place then some (((entries.lookup place).getD {}).union set)
      else entries.lookup other := by
  induction entries with
  | nil =>
    by_cases same : other = place
    · simp [enter, same, AccessSet.union]
    · simp [enter, List.lookup_cons, same, beq_eq_false_iff_ne.mpr same]
  | cons entry rest ih =>
    obtain ⟨first, known⟩ := entry
    obtain ⟨below, order⟩ := List.pairwise_cons.mp ascending
    simp only [enter]
    split
    · rename_i same
      by_cases here : other = first
      · simp [same, here]
      · simp [List.lookup_cons, same, here, beq_eq_false_iff_ne.mpr here]
    · rename_i apart
      split
      · rename_i before
        have absent : List.lookup place ((first, known) :: rest) = none :=
          lookup_eq_none_of_lt fun entry member => by
            rcases List.mem_cons.mp member with rfl | behind
            · exact before
            · exact Nat.lt_trans before (below entry behind)
        rw [List.lookup_cons]
        by_cases here : other = place
        · simp [here, absent, AccessSet.union]
        · simp [here, beq_eq_false_iff_ne.mpr here]
      · rw [List.lookup_cons, ih order]
        by_cases here : other = place
        · subst here
          simp [List.lookup_cons, beq_eq_false_iff_ne.mpr apart]
        · simp only [if_neg here, List.lookup_cons]

/-- Only the accesses to the place that was added change, and none of them is lost. -/
theorem get_add (log : AccessLog) (place other : Place) (set : AccessSet) :
    (log.add place set).get other =
      if other = place then (log.get place).union set else log.get other := by
  simp only [get, add, lookup_enter place other set log.ascending]
  split <;> rfl

end AccessLog

end Gumnut
