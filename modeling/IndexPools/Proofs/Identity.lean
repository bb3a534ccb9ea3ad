import IndexPools.Codec
import Mathlib.Data.List.Basic
import Mathlib.Tactic.SplitIfs

/-!
# The text of identities

Identities and their texts correspond one to one (`identity_text_exact`). A text is read as an
identity just if it has one dot, something on each side of the dot, and no blank character, and then
it is the text of what was read. Any other text is refused for its first fault (`Refused`): the
namespace is looked at before the name, and a part for emptiness, then for a dot, then for a blank
character (`Faulty`).
-/

namespace IndexPools

/-- What is wrong with a part, if nothing is that counts before it. -/
inductive Faulty : List Char → PartFault → Prop
  | empty : Faulty [] .empty
  | dotted {cs : List Char} (hdot : '.' ∈ cs) : Faulty cs .dotted
  | blank {cs : List Char} (hdot : '.' ∉ cs) (hblank : ∃ c ∈ cs, Text.isBlank c = true) :
      Faulty cs .blank

/-- Why a text is no identity; the namespace is what stands before the first dot. -/
inductive Refused : List Char → IdError → Prop
  | empty : Refused [] .empty
  | undotted {cs : List Char} (hsome : cs ≠ []) (hdot : '.' ∉ cs) : Refused cs .missingSeparator
  | ns {ns name : List Char} {fault : PartFault} (hfirst : '.' ∉ ns) (hns : Faulty ns fault) :
      Refused (ns ++ '.' :: name) (.invalidPart .ns fault)
  | name {ns name : List Char} {fault : PartFault} (hfirst : '.' ∉ ns)
      (hns : ∀ fault, ¬ Faulty ns fault) (hname : Faulty name fault) :
      Refused (ns ++ '.' :: name) (.invalidPart .name fault)

theorem not_faulty_iff {cs : List Char} : (∀ fault, ¬ Faulty cs fault) ↔
    cs ≠ [] ∧ '.' ∉ cs ∧ ∀ c ∈ cs, Text.isBlank c = false := by
  constructor
  · intro h
    have hdot : '.' ∉ cs := fun hdot => h _ (.dotted hdot)
    refine ⟨?_, hdot, fun c hc => ?_⟩
    · rintro rfl
      exact h _ .empty
    · rw [← Bool.not_eq_true]
      exact fun hblank => h _ (.blank hdot ⟨c, hc, hblank⟩)
  · rintro ⟨hsome, hdot, hblank⟩ fault hfault
    cases hfault with
    | empty => exact hsome rfl
    | dotted hdot' => exact hdot hdot'
    | blank _ hblank' =>
      obtain ⟨c, hc, hb⟩ := hblank'
      exact Bool.false_ne_true ((hblank c hc).symm.trans hb)

theorem partFault?_eq_some {s : String} {fault : PartFault} :
    partFault? s = some fault ↔ Faulty s.toList fault := by
  unfold partFault?
  generalize s.toList = cs
  constructor
  · intro h
    split_ifs at h with hempty hdot hblank
    · cases h
      rw [hempty]
      exact .empty
    · cases h
      exact .dotted hdot
    · cases h
      exact .blank hdot (List.any_eq_true.1 hblank)
  · intro h
    cases h with
    | empty => rfl
    | dotted hdot => rw [if_neg (List.ne_nil_of_mem hdot), if_pos hdot]
    | blank hdot hblank =>
      obtain ⟨c, hc, hb⟩ := hblank
      rw [if_neg (List.ne_nil_of_mem hc), if_neg hdot, if_pos (List.any_eq_true.2 ⟨c, hc, hb⟩)]

theorem partFault?_eq_none {s : String} :
    partFault? s = none ↔ ∀ fault, ¬ Faulty s.toList fault := by
  simp only [Option.eq_none_iff_forall_ne_some, ne_eq, partFault?_eq_some]

namespace PoolId

theorem make_eq_error {ns name : String} {err : IdError} : make ns name = .error err ↔
    (∃ fault, partFault? ns = some fault ∧ err = .invalidPart .ns fault) ∨
      (partFault? ns = none ∧
        ∃ fault, partFault? name = some fault ∧ err = .invalidPart .name fault) := by
  unfold make
  split
  · next fault hns => simp [hns, eq_comm]
  · next hns =>
    split
    · next fault hname => simp [hns, hname, eq_comm]
    · next hname => simp [hns, hname]

theorem toList_text (id : PoolId) : id.text.toList = id.ns.toList ++ '.' :: id.name.toList := by
  simp [text, String.toList_append]

theorem splitAtDot_eq_none : ∀ {cs : List Char}, '.' ∉ cs → splitAtDot cs = none
  | [], _ => rfl
  | c :: cs, h => by
    have hc : c ≠ '.' := fun e => h (e ▸ List.mem_cons_self)
    have hcs : '.' ∉ cs := List.not_mem_of_not_mem_cons h
    simp [splitAtDot, hc, splitAtDot_eq_none hcs]

theorem parse_of_undotted {s : String} (hsome : s.toList ≠ []) (hdot : '.' ∉ s.toList) :
    parse s = .error .missingSeparator := by
  unfold parse
  rw [if_neg hsome, splitAtDot_eq_none hdot]

theorem parse_of_dotted {s : String} {ns name : List Char} (h : s.toList = ns ++ '.' :: name)
    (hfirst : '.' ∉ ns) : parse s = make (String.ofList ns) (String.ofList name) := by
  unfold parse
  rw [if_neg (by simp [h]), h, splitAtDot_append ns name hfirst]

/-- A text is read as the one identity whose text it is. -/
theorem parse_eq_ok {s : String} {id : PoolId} : parse s = .ok id ↔ id.text = s := by
  refine ⟨fun h => ?_, fun h => h ▸ parse_text id⟩
  by_cases hdot : '.' ∈ s.toList
  · obtain ⟨ns, name, hs, hfirst⟩ := List.eq_append_cons_of_mem hdot
    rw [parse_of_dotted hs hfirst, make_eq_ok] at h
    rw [← String.toList_inj, toList_text, ← h.1, ← h.2, hs, String.toList_ofList,
      String.toList_ofList]
  · by_cases hsome : s.toList = []
    · simp [parse, hsome] at h
    · rw [parse_of_undotted hsome hdot] at h
      cases h

theorem parse_eq_error {s : String} {err : IdError} :
    parse s = .error err ↔ Refused s.toList err := by
  constructor
  · intro h
    by_cases hdot : '.' ∈ s.toList
    · obtain ⟨ns, name, hs, hfirst⟩ := List.eq_append_cons_of_mem hdot
      rw [parse_of_dotted hs hfirst, make_eq_error] at h
      simp only [partFault?_eq_some, partFault?_eq_none, String.toList_ofList] at h
      rw [hs]
      rcases h with ⟨fault, hns, rfl⟩ | ⟨hns, fault, hname, rfl⟩
      · exact .ns hfirst hns
      · exact .name hfirst hns hname
    · by_cases hsome : s.toList = []
      · unfold parse at h
        rw [if_pos hsome] at h
        cases h
        rw [hsome]
        exact .empty
      · rw [parse_of_undotted hsome hdot] at h
        cases h
        exact .undotted hsome hdot
  · intro h
    generalize hs : s.toList = cs at h
    cases h with
    | empty => exact if_pos hs
    | undotted hsome hdot => exact parse_of_undotted (hs ▸ hsome) (hs ▸ hdot)
    | ns hfirst hns =>
      rw [parse_of_dotted hs hfirst, make_eq_error]
      simp only [partFault?_eq_some, String.toList_ofList]
      exact .inl ⟨_, hns, rfl⟩
    | name hfirst hns hname =>
      rw [parse_of_dotted hs hfirst, make_eq_error]
      simp only [partFault?_eq_some, partFault?_eq_none, String.toList_ofList]
      exact .inr ⟨hns, _, hname, rfl⟩

theorem ns_sound (id : PoolId) :
    id.ns.toList ≠ [] ∧ '.' ∉ id.ns.toList ∧ ∀ c ∈ id.ns.toList, Text.isBlank c = false :=
  not_faulty_iff.1 (partFault?_eq_none.1 id.ns_ok)

theorem name_sound (id : PoolId) :
    id.name.toList ≠ [] ∧ '.' ∉ id.name.toList ∧ ∀ c ∈ id.name.toList, Text.isBlank c = false :=
  not_faulty_iff.1 (partFault?_eq_none.1 id.name_ok)

/-- Identities are written with one dot, which has something on each side, and without blanks. -/
theorem exists_text_iff {s : String} : (∃ id : PoolId, id.text = s) ↔
    s.toList.count '.' = 1 ∧ (∀ a b, s.toList = a ++ '.' :: b → a ≠ [] ∧ b ≠ []) ∧
      ∀ c ∈ s.toList, Text.isBlank c = false := by
  constructor
  · rintro ⟨id, rfl⟩
    obtain ⟨hns, hnsdot, hnsblank⟩ := id.ns_sound
    obtain ⟨hname, hnamedot, hnameblank⟩ := id.name_sound
    rw [toList_text]
    refine ⟨?_, fun a b h => ?_, fun c hc => ?_⟩
    · rw [List.count_append, List.count_cons_self, List.count_eq_zero.2 hnsdot,
        List.count_eq_zero.2 hnamedot]
    · obtain ⟨rfl, -, rfl⟩ := (List.append_cons_inj_of_notMem hnsdot hnamedot).1 h
      exact ⟨hns, hname⟩
    · rcases List.mem_append.1 hc with hc | hc
      · exact hnsblank c hc
      · rcases List.mem_cons.1 hc with rfl | hc
        · rfl
        · exact hnameblank c hc
  · rintro ⟨hcount, hparts, hblank⟩
    have hdot : '.' ∈ s.toList := List.count_pos_iff.1 (by omega)
    obtain ⟨ns, name, hs, hfirst⟩ := List.eq_append_cons_of_mem hdot
    obtain ⟨hns, hname⟩ := hparts ns name hs
    have hlast : '.' ∉ name := by
      rw [hs, List.count_append, List.count_cons_self] at hcount
      exact List.count_eq_zero.1 (by omega)
    simp only [hs, List.mem_append, List.mem_cons] at hblank
    have hsound : ∀ cs : List Char, cs ≠ [] → '.' ∉ cs → (∀ c ∈ cs, Text.isBlank c = false) →
        partFault? (String.ofList cs) = none := by
      intro cs hsome hdot hblank
      rw [partFault?_eq_none, String.toList_ofList]
      exact not_faulty_iff.2 ⟨hsome, hdot, hblank⟩
    refine ⟨⟨String.ofList ns, String.ofList name, hsound ns hns hfirst fun c hc => ?_,
      hsound name hname hlast fun c hc => ?_⟩, ?_⟩
    · exact hblank c (.inl hc)
    · exact hblank c (.inr (.inr hc))
    · rw [← String.toList_inj, toList_text, hs, String.toList_ofList, String.toList_ofList]

/-- A value stands for the identity whose text it is. -/
theorem ofValue_eq_ok {v : Value} {id : PoolId} : ofValue v = .ok id ↔ v = .text id.text := by
  constructor
  · intro h
    cases v with
    | text s =>
      rcases hs : parse s with err | id'
      · simp [ofValue, hs, Except.mapError] at h
      · simp only [ofValue, hs, Except.mapError, Except.ok.injEq] at h
        rw [← h, parse_eq_ok.1 hs]
    | _ => cases h
  · rintro rfl
    exact id.ofValue_toValue

end PoolId

/-- Which texts are read as an identity, and as which; why the others are refused; and that
identities are exchanged as their texts. -/
theorem identity_text_exact (s : String) :
    ((∃ id, PoolId.parse s = .ok id) ↔ s.toList.count '.' = 1 ∧
      (∀ a b, s.toList = a ++ '.' :: b → a ≠ [] ∧ b ≠ []) ∧
      ∀ c ∈ s.toList, Text.isBlank c = false) ∧
    (∀ id, PoolId.parse s = .ok id ↔ id.text = s) ∧
    (∀ err, PoolId.parse s = .error err ↔ Refused s.toList err) ∧
    (∀ ns name id, PoolId.make ns name = .ok id →
      id.text = ns ++ "." ++ name ∧ PoolId.parse id.text = .ok id) ∧
    PoolId.ofValue (.text s) = (PoolId.parse s).mapError .badId ∧
    ∀ id, id.toValue = .text id.text ∧ ∀ v, PoolId.ofValue v = .ok id ↔ v = .text id.text := by
  refine ⟨?_, fun id => PoolId.parse_eq_ok, fun err => PoolId.parse_eq_error,
    fun ns name id h => ?_, rfl, fun id => ⟨rfl, fun v => PoolId.ofValue_eq_ok⟩⟩
  · simp only [PoolId.parse_eq_ok]
    exact PoolId.exists_text_iff
  · obtain ⟨rfl, rfl⟩ := PoolId.make_eq_ok.1 h
    exact ⟨rfl, id.parse_text⟩

/-- A blank in the namespace counts before all that is wrong with the name, and there a dot counts
before a blank. -/
theorem identity_text_exact_ranked :
    PoolId.parse "my net.ids.v 2" = .error (.invalidPart .ns .blank) ∧
      PoolId.parse "net.ids.v 2" = .error (.invalidPart .name .dotted) ∧
      PoolId.make "net" "ids" = .ok ⟨"net", "ids", rfl, rfl⟩ ∧
      PoolId.parse "net.ids" = .ok ⟨"net", "ids", rfl, rfl⟩ := by
  have hns : Refused ("my net".toList ++ '.' :: "ids.v 2".toList) (.invalidPart .ns .blank) :=
    .ns (by decide) (.blank (by decide) ⟨' ', by decide, rfl⟩)
  have hname : Refused ("net".toList ++ '.' :: "ids.v 2".toList) (.invalidPart .name .dotted) :=
    .name (by decide) (partFault?_eq_none.1 rfl) (.dotted (by decide))
  have hmake : PoolId.make "net" "ids" = .ok ⟨"net", "ids", rfl, rfl⟩ := rfl
  exact ⟨((identity_text_exact _).2.2.1 _).2 hns, ((identity_text_exact _).2.2.1 _).2 hname, hmake,
    ((identity_text_exact "net.ids").2.2.2.1 "net" "ids" _ hmake).2⟩

end IndexPools
