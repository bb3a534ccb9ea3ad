import IndexPools.Text.Blank
import Std.Data.ExtTreeMap

/-!
# Pool identities

A pool is named by a namespace and a name, written `namespace.name`. Neither part is empty, and
neither holds a dot or a blank character, so the text has one reading: what was written is read
back (`PoolId.parse_text`). Identities are ordered by namespace, then by name.
-/

namespace IndexPools

inductive IdPart where
  | ns
  | name
deriving DecidableEq, Repr

/-- What makes a part of a pool's identity unusable. -/
inductive PartFault where
  | empty
  | dotted
  | blank
deriving DecidableEq, Repr

inductive IdError where
  | empty
  | missingSeparator
  | invalidPart (part : IdPart) (fault : PartFault)
deriving DecidableEq, Repr

def IdPart.text : IdPart → String
  | .ns => "namespace"
  | .name => "name"

def PartFault.text : PartFault → String
  | .empty => "must not be empty"
  | .dotted => "must not contain '.'"
  | .blank => "must not contain whitespace"

def IdError.message : IdError → String
  | .empty => "ID cannot be empty"
  | .missingSeparator => "ID missing '.' separator between namespace and name"
  | .invalidPart part fault => "invalid " ++ part.text ++ ": " ++ fault.text

/-- The first fault of a part: emptiness, then a dot, then a blank character. -/
def partFault? (s : String) : Option PartFault :=
  if s.toList = [] then some .empty
  else if '.' ∈ s.toList then some .dotted
  else if s.toList.any Text.isBlank then some .blank
  else none

structure PoolId where
  ns : String
  name : String
  ns_ok : partFault? ns = none
  name_ok : partFault? name = none
deriving DecidableEq

namespace PoolId

/-- Checks the namespace before the name. -/
def make (ns name : String) : Except IdError PoolId :=
  match hs : partFault? ns with
  | some fault => .error (.invalidPart .ns fault)
  | none =>
    match hn : partFault? name with
    | some fault => .error (.invalidPart .name fault)
    | none => .ok ⟨ns, name, hs, hn⟩

def text (id : PoolId) : String :=
  id.ns ++ "." ++ id.name

/-- The characters before and after the first dot. -/
def splitAtDot : List Char → Option (List Char × List Char)
  | [] => none
  | c :: cs =>
    if c = '.' then some ([], cs)
    else (splitAtDot cs).map fun parts => (c :: parts.1, parts.2)

/-- Reads `namespace.name`; the name is all that follows the first dot. -/
def parse (s : String) : Except IdError PoolId :=
  if s.toList = [] then .error .empty
  else
    match splitAtDot s.toList with
    | none => .error .missingSeparator
    | some (ns, name) => make (String.ofList ns) (String.ofList name)

instance : Ord PoolId where
  compare := compareLex (compareOn PoolId.ns) (compareOn PoolId.name)

instance : Std.TransOrd PoolId :=
  inferInstanceAs (Std.TransCmp (compareLex (compareOn PoolId.ns) (compareOn PoolId.name)))

instance : Std.LawfulEqOrd PoolId where
  eq_of_compare {a b} h := by
    have h' : (compare a.ns b.ns).then (compare a.name b.name) = .eq := h
    rw [Ordering.then_eq_eq] at h'
    obtain ⟨hs, hn⟩ := h'
    cases a
    cases b
    simp_all

theorem make_ok (id : PoolId) : make id.ns id.name = .ok id := by
  unfold make
  split
  · next h => rw [id.ns_ok] at h; exact absurd h (by simp)
  · split
    · next h => rw [id.name_ok] at h; exact absurd h (by simp)
    · rfl

theorem make_eq_ok {ns name : String} {id : PoolId} :
    make ns name = .ok id ↔ ns = id.ns ∧ name = id.name := by
  constructor
  · intro h
    unfold make at h
    split at h
    · cases h
    · split at h
      · cases h
      · cases h
        exact ⟨rfl, rfl⟩
  · rintro ⟨rfl, rfl⟩
    exact id.make_ok

theorem splitAtDot_append : ∀ (a b : List Char), '.' ∉ a →
    splitAtDot (a ++ '.' :: b) = some (a, b)
  | [], _, _ => rfl
  | c :: a, b, h => by
    simp only [List.mem_cons, not_or] at h
    have hc : c ≠ '.' := fun e => h.1 e.symm
    simp [splitAtDot, hc, splitAtDot_append a b h.2]

theorem dot_notMem_of_partFault {s : String} (h : partFault? s = none) : '.' ∉ s.toList := by
  unfold partFault? at h
  split at h
  · simp at h
  · split at h
    · simp at h
    · assumption

theorem parse_text (id : PoolId) : parse id.text = .ok id := by
  have hl : id.text.toList = id.ns.toList ++ '.' :: id.name.toList := by
    simp [text, String.toList_append]
  unfold parse
  rw [hl, splitAtDot_append _ _ (dot_notMem_of_partFault id.ns_ok)]
  simp [make_ok, String.ofList_toList]

end PoolId

end IndexPools
