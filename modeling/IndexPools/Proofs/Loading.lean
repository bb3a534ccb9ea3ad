import IndexPools.Manifest
import IndexPools.Proofs.Identity
import IndexPools.Proofs.Lookup
import Mathlib.Data.List.Nodup
import Mathlib.Data.List.Perm.Basic

/-!
# Which manifests load

A manifest loads just if each of its records has its place: each registry an identity that no
registry before it has, each register a registry with an identity, and a key that no register
before it has. Both lists are filled in by one loop, which puts each record under its key into a
map and stops at the first one that it cannot place (`enter`). It ends well just if every record
has its place and no two have the same one (`enter_eq_ok`), and else with the fault of the first
record that did not fit in after the ones before it (`enter_eq_error`). What was loaded does not
depend on the order of the records (`store_of_manifest`).
-/

namespace IndexPools

open Std

section Placed

variable {α κ β ε : Type} {place : α → Except ε (κ × β)}

/-- The records have the given places, in order, and no two have the same key. -/
structure Placed (place : α → Except ε (κ × β)) (es : List α) (places : List (κ × β)) : Prop where
  each : List.Forall₂ (fun e p => place e = .ok p) es places
  once : (places.map Prod.fst).Nodup

theorem placed_cons {e : α} {es : List α} {k : κ} {v : β} (he : place e = .ok (k, v))
    {places : List (κ × β)} :
    Placed place (e :: es) places ↔
      ∃ rest, places = (k, v) :: rest ∧ k ∉ rest.map Prod.fst ∧ Placed place es rest := by
  constructor
  · rintro ⟨heach, honce⟩
    cases heach with
    | cons hp hrest =>
      cases he.symm.trans hp
      rw [List.map_cons, List.nodup_cons] at honce
      exact ⟨_, rfl, honce.1, hrest, honce.2⟩
  · rintro ⟨rest, rfl, hk, heach, honce⟩
    exact ⟨.cons he heach, List.nodup_cons.2 ⟨hk, honce⟩⟩

theorem not_placed_cons {e : α} {es : List α} {err : ε} (he : place e = .error err)
    {places : List (κ × β)} : ¬ Placed place (e :: es) places := by
  rintro ⟨heach, -⟩
  cases heach with
  | cons hp _ => cases he.symm.trans hp

theorem Placed.mem_iff {es : List α} {places : List (κ × β)} (h : Placed place es places)
    {p : κ × β} : p ∈ places ↔ ∃ e ∈ es, place e = .ok p := by
  obtain ⟨heach, -⟩ := h
  induction heach with
  | nil => simp
  | cons hp _ ih =>
    rw [List.mem_cons, ih, List.exists_mem_cons_iff, hp, Except.ok.injEq, @eq_comm _ p]

/-- Records have their places just if each one has a place, and any two have different keys. -/
theorem exists_placed : ∀ {es : List α}, (∃ places, Placed place es places) ↔
    (∀ e ∈ es, ∃ p, place e = .ok p) ∧
      es.Pairwise fun e e' => ∀ p p', place e = .ok p → place e' = .ok p' → p.1 ≠ p'.1
  | [] => by simpa using ⟨[], .nil, List.nodup_nil⟩
  | e :: es => by
    rcases he : place e with err | ⟨k, v⟩
    · refine iff_of_false (fun ⟨places, h⟩ => not_placed_cons he h) fun h => ?_
      obtain ⟨p, hp⟩ := h.1 e List.mem_cons_self
      cases he.symm.trans hp
    · have ih : (∃ places, Placed place es places) ↔ _ := exists_placed
      simp only [placed_cons he, List.forall_mem_cons, List.pairwise_cons, he, Except.ok.injEq]
      constructor
      · rintro ⟨places, rest, rfl, hk, hrest⟩
        obtain ⟨heach, hapart⟩ := ih.1 ⟨rest, hrest⟩
        refine ⟨⟨⟨_, rfl⟩, heach⟩, fun e' he' p p' hp hp' heq => hk ?_, hapart⟩
        subst hp
        exact List.mem_map.2 ⟨p', hrest.mem_iff.2 ⟨e', he', hp'⟩, heq.symm⟩
      · rintro ⟨⟨-, heach⟩, hother, hapart⟩
        obtain ⟨rest, hrest⟩ := ih.2 ⟨heach, hapart⟩
        refine ⟨_, rest, rfl, fun hk => ?_, hrest⟩
        obtain ⟨p', hp', hkey⟩ := List.mem_map.1 hk
        obtain ⟨e', he', hplace⟩ := hrest.mem_iff.1 hp'
        exact hother e' he' _ p' rfl hplace hkey.symm

/-- The same records in another order have the same places, in another order. -/
theorem Placed.of_perm {es es' : List α} {places : List (κ × β)} (h : Placed place es places)
    (hperm : es'.Perm es) : ∃ places', Placed place es' places' ∧ places'.Perm places := by
  obtain ⟨places', heach, hplaces⟩ := List.perm_comp_forall₂ hperm h.each
  exact ⟨places', ⟨heach, (hplaces.map _).nodup_iff.2 h.once⟩, hplaces⟩

end Placed

section Enter

variable {α κ β ε : Type} [Ord κ] [TransOrd κ]

/-- Puts a record under its key into a map, if it has a key that is not taken. -/
def enterOne (place : α → Except ε (κ × β)) (taken : κ → ε) (m : ExtTreeMap κ β) (e : α) :
    Except ε (ExtTreeMap κ β) :=
  match place e with
  | .error err => .error err
  | .ok (k, v) =>
    match m[k]? with
    | some _ => .error (taken k)
    | none => .ok (m.insert k v)

def enter (place : α → Except ε (κ × β)) (taken : κ → ε) :
    ExtTreeMap κ β → List α → Except ε (ExtTreeMap κ β)
  | m, [] => .ok m
  | m, e :: es =>
    match enterOne place taken m e with
    | .error err => .error err
    | .ok m => enter place taken m es

variable {place : α → Except ε (κ × β)} {taken : κ → ε}

/-- An error comes from the first record that did not fit in after the ones before it. -/
theorem enter_eq_error {err : ε} : ∀ {es : List α} {m : ExtTreeMap κ β},
    enter place taken m es = .error err ↔
      ∃ before e after m', es = before ++ e :: after ∧ enter place taken m before = .ok m' ∧
        enterOne place taken m' e = .error err
  | [], m => by simp [enter]
  | e :: es, m => by
    unfold enter
    rcases he : enterOne place taken m e with err' | m₁
    · constructor
      · intro h
        exact ⟨[], e, es, m, rfl, rfl, he.trans h⟩
      · rintro ⟨before, e', after, m', hes, hbefore, he'⟩
        cases before with
        | nil =>
          cases hes
          cases hbefore
          exact he.symm.trans he'
        | cons b before =>
          cases hes
          simp [he] at hbefore
    · have ih : enter place taken m₁ es = .error err ↔ _ := enter_eq_error
      simp only [ih]
      constructor
      · rintro ⟨before, e', after, m', rfl, hbefore, he'⟩
        exact ⟨e :: before, e', after, m', rfl, by simpa [enter, he] using hbefore, he'⟩
      · rintro ⟨before, e', after, m', hes, hbefore, he'⟩
        cases before with
        | nil =>
          cases hes
          cases hbefore
          cases he.symm.trans he'
        | cons b before =>
          cases hes
          exact ⟨before, e', after, m', rfl, by simpa [enter, he] using hbefore, he'⟩

theorem enterOne_eq_ok {m m' : ExtTreeMap κ β} {e : α} :
    enterOne place taken m e = .ok m' ↔
      ∃ k v, place e = .ok (k, v) ∧ m[k]? = none ∧ m' = m.insert k v := by
  unfold enterOne
  rcases place e with err | ⟨k, v⟩
  · simp
  · simp only [Except.ok.injEq, Prod.mk.injEq, and_assoc, exists_and_left, exists_eq_left']
    rcases m[k]? with _ | w <;> simp [eq_comm]

theorem enterOne_eq_error {m : ExtTreeMap κ β} {e : α} {err : ε} :
    enterOne place taken m e = .error err ↔
      place e = .error err ∨
        ∃ k v w, place e = .ok (k, v) ∧ m[k]? = some w ∧ taken k = err := by
  unfold enterOne
  rcases place e with err' | ⟨k, v⟩
  · simp
  · simp only [Except.ok.injEq, Prod.mk.injEq, reduceCtorEq, false_or, and_assoc, exists_and_left,
      exists_eq_left']
    rcases m[k]? with _ | w <;> simp

variable [LawfulEqOrd κ] [DecidableEq κ]

/-- Where the loop ends well, the records have their places, none of which was taken, and these have
been added to the map. -/
theorem placed_of_enter : ∀ {es : List α} {m m' : ExtTreeMap κ β},
    enter place taken m es = .ok m' →
      ∃ places, Placed place es places ∧ (∀ p ∈ places, m[p.1]? = none) ∧
        ∀ k v, m'[k]? = some v ↔ m[k]? = some v ∨ (k, v) ∈ places
  | [], _, _, h => by
    cases h
    exact ⟨[], ⟨.nil, List.nodup_nil⟩, nofun, by simp⟩
  | e :: es, m, m', h => by
    unfold enter at h
    rcases he : enterOne place taken m e with err | m₁
    · simp [he] at h
    · simp only [he] at h
      obtain ⟨k, v, hp, hfree, rfl⟩ := enterOne_eq_ok.1 he
      obtain ⟨rest, hrest, hnone, hlookup⟩ := placed_of_enter h
      simp only [lookup_insert_eq_none] at hnone
      refine ⟨(k, v) :: rest, (placed_cons hp).2 ⟨rest, rfl, fun hk => ?_, hrest⟩, ?_, ?_⟩
      · obtain ⟨p, hmem, rfl⟩ := List.mem_map.1 hk
        exact (hnone p hmem).1 rfl
      · exact List.forall_mem_cons.2 ⟨hfree, fun p hp => (hnone p hp).2⟩
      · intro a w
        rw [hlookup, lookup_insert_eq_some hfree, List.mem_cons, or_assoc]

theorem exists_enter : ∀ {es : List α} {places : List (κ × β)} {m : ExtTreeMap κ β},
    Placed place es places → (∀ p ∈ places, m[p.1]? = none) → ∃ m', enter place taken m es = .ok m'
  | [], _, m, _, _ => ⟨m, rfl⟩
  | e :: es, places, m, hplaces, hnone => by
    rcases hp : place e with err | ⟨k, v⟩
    · exact absurd hplaces (not_placed_cons hp)
    · obtain ⟨rest, rfl, hk, hrest⟩ := (placed_cons hp).1 hplaces
      obtain ⟨hfree, hnone⟩ := List.forall_mem_cons.1 hnone
      unfold enter
      rw [enterOne_eq_ok.2 ⟨k, v, hp, hfree, rfl⟩]
      refine exists_enter hrest fun p hp => lookup_insert_eq_none.2 ⟨fun heq => hk ?_, hnone p hp⟩
      exact List.mem_map.2 ⟨p, hp, heq⟩

/-- From an empty map the loop ends well just if the records have their places, and then these are
what the map holds. -/
theorem enter_eq_ok {es : List α} {m : ExtTreeMap κ β} :
    enter place taken ∅ es = .ok m ↔ ∃ places, Placed place es places ∧ m.toList.Perm places := by
  have hperm : ∀ (m : ExtTreeMap κ β) {places}, Placed place es places →
      (m.toList.Perm places ↔ ∀ k v, m[k]? = some v ↔ (k, v) ∈ places) := by
    intro m places hplaces
    rw [List.perm_ext_iff_of_nodup (nodup_toList m) (List.Nodup.of_map _ hplaces.once), Prod.forall]
    simp only [ExtTreeMap.mem_toList_iff_getElem?_eq_some]
  constructor
  · intro h
    obtain ⟨places, hplaces, -, hlookup⟩ := placed_of_enter h
    exact ⟨places, hplaces, (hperm m hplaces).2 fun k v => by simpa using hlookup k v⟩
  · rintro ⟨places, hplaces, hm⟩
    obtain ⟨m', hm'⟩ : ∃ m', enter place taken ∅ es = .ok m' :=
      exists_enter hplaces fun _ _ => by simp
    obtain ⟨places', hplaces', -, hlookup⟩ := placed_of_enter hm'
    rw [hm']
    refine congrArg Except.ok (ExtTreeMap.ext_getElem? fun k => Option.ext fun v => ?_)
    rw [(hperm m hplaces).1 hm, hlookup, hplaces.mem_iff, hplaces'.mem_iff]
    simp

end Enter

/-- What the loader makes of the entries of one list: the pool that an entry names, which must have
an identity, the entry's own name, and the key and the record that it is given. Entries have one
key just if they have one name. -/
structure Kind (α κ β : Type) where
  pool : α → String × String
  name : α → String × String
  file : α → PoolId → κ × β
  taken : κ → ManifestError
  key_eq_iff {e e' : α} {id id' : PoolId} (h : (id.ns, id.name) = pool e)
    (h' : (id'.ns, id'.name) = pool e') : (file e id).1 = (file e' id').1 ↔ name e = name e'

def registryKind : Kind RegistryEntry PoolId RegistryRecord where
  pool e := (e.ns, e.name)
  name e := (e.ns, e.name)
  file e id := (id, { RegistryRecord.declare id e.spec with ready := e.ready })
  taken := .duplicateRegistry
  key_eq_iff {e e' id id'} h h' := by
    rw [← h, ← h', Prod.mk.injEq]
    exact iff_of_eq (PoolId.mk.injEq ..)

def registerKind : Kind RegisterEntry RegisterKey RegisterRecord where
  pool e := (e.ns, e.registry)
  name e := (e.ns, e.name)
  file e _ := (e.key, e.record)
  taken := .duplicateRegister
  key_eq_iff _ _ := by simp [RegisterEntry.key]

namespace Kind

variable {α κ β : Type} (kind : Kind α κ β)

/-- Every entry names a pool that has an identity, and no two entries have the same name. -/
structure Proper (es : List α) : Prop where
  pools : ∀ e ∈ es, ∃ id : PoolId, (id.ns, id.name) = kind.pool e
  names : es.Pairwise fun e e' => kind.name e ≠ kind.name e'

/-- What is wrong with the first entry that has something wrong with it: the identity of its pool,
or else its name, which an entry before it has. -/
inductive FirstFault : List α → ManifestError → Prop
  | badId {before after : List α} {e : α} {err : IdError} (hbefore : kind.Proper before)
      (hid : PoolId.make (kind.pool e).1 (kind.pool e).2 = .error err) :
      FirstFault (before ++ e :: after) (.badId err)
  | taken {before after : List α} {e : α} {id : PoolId} (hbefore : kind.Proper before)
      (hid : (id.ns, id.name) = kind.pool e)
      (hearlier : ∃ e' ∈ before, kind.name e' = kind.name e) :
      FirstFault (before ++ e :: after) (kind.taken (kind.file e id).1)

def place (e : α) : Except ManifestError (κ × β) :=
  match PoolId.make (kind.pool e).1 (kind.pool e).2 with
  | .error err => .error (.badId err)
  | .ok id => .ok (kind.file e id)

variable {kind}

theorem place_eq_ok {e : α} {p : κ × β} :
    kind.place e = .ok p ↔ ∃ id : PoolId, (id.ns, id.name) = kind.pool e ∧ kind.file e id = p := by
  have hmake : ∀ id : PoolId, (id.ns, id.name) = kind.pool e ↔
      PoolId.make (kind.pool e).1 (kind.pool e).2 = .ok id := by
    intro id
    rw [PoolId.make_eq_ok, Prod.ext_iff, @eq_comm _ id.ns, @eq_comm _ id.name]
  simp only [hmake]
  unfold place
  rcases PoolId.make (kind.pool e).1 (kind.pool e).2 with err | id <;> simp

theorem place_eq_error {e : α} {err : ManifestError} :
    kind.place e = .error err ↔
      ∃ err', PoolId.make (kind.pool e).1 (kind.pool e).2 = .error err' ∧ err = .badId err' := by
  unfold place
  rcases PoolId.make (kind.pool e).1 (kind.pool e).2 with err | id <;> simp [eq_comm]

theorem exists_placed_iff {es : List α} :
    (∃ places, Placed kind.place es places) ↔ kind.Proper es := by
  rw [exists_placed]
  constructor
  · rintro ⟨heach, hapart⟩
    have hpools : ∀ e ∈ es, ∃ id : PoolId, (id.ns, id.name) = kind.pool e := by
      intro e he
      obtain ⟨p, hp⟩ := heach e he
      obtain ⟨id, hid, -⟩ := place_eq_ok.1 hp
      exact ⟨id, hid⟩
    refine ⟨hpools, hapart.imp_of_mem fun {e e'} he he' h heq => ?_⟩
    obtain ⟨id, hid⟩ := hpools e he
    obtain ⟨id', hid'⟩ := hpools e' he'
    exact h _ _ (place_eq_ok.2 ⟨id, hid, rfl⟩) (place_eq_ok.2 ⟨id', hid', rfl⟩)
      ((kind.key_eq_iff hid hid').2 heq)
  · rintro ⟨hpools, hnames⟩
    refine ⟨fun e he => ?_, hnames.imp fun {e e'} h p p' hp hp' heq => ?_⟩
    · obtain ⟨id, hid⟩ := hpools e he
      exact ⟨_, place_eq_ok.2 ⟨id, hid, rfl⟩⟩
    · obtain ⟨id, hid, rfl⟩ := place_eq_ok.1 hp
      obtain ⟨id', hid', rfl⟩ := place_eq_ok.1 hp'
      exact h ((kind.key_eq_iff hid hid').1 heq)

variable [Ord κ] [TransOrd κ] [LawfulEqOrd κ] [DecidableEq κ]

variable (kind) in
/-- The loop for the entries of one list. -/
def load (es : List α) : Except ManifestError (ExtTreeMap κ β) :=
  enter kind.place kind.taken ∅ es

theorem load_eq_ok {es : List α} {m : ExtTreeMap κ β} :
    kind.load es = .ok m ↔ ∃ places, Placed kind.place es places ∧ m.toList.Perm places :=
  enter_eq_ok

/-- The order of the entries does not matter. -/
theorem load_of_perm {es es' : List α} {m : ExtTreeMap κ β} (h : kind.load es = .ok m)
    (hperm : es'.Perm es) : kind.load es' = .ok m := by
  obtain ⟨places, hplaces, hm⟩ := load_eq_ok.1 h
  obtain ⟨places', hplaces', hp⟩ := hplaces.of_perm hperm
  exact load_eq_ok.2 ⟨places', hplaces', hm.trans hp.symm⟩

/-- There is one record for each entry. -/
theorem values_of_load {es : List α} {m : ExtTreeMap κ β} (h : kind.load es = .ok m) :
    ∃ records, List.Forall₂ (fun e r => ∃ id : PoolId, (id.ns, id.name) = kind.pool e ∧
      r = (kind.file e id).2) es records ∧ m.values.Perm records := by
  obtain ⟨places, ⟨heach, -⟩, hperm⟩ := load_eq_ok.1 h
  refine ⟨places.map Prod.snd, List.forall₂_map_right_iff.2 (heach.imp fun e p hp => ?_), ?_⟩
  · obtain ⟨id, hid, rfl⟩ := place_eq_ok.1 hp
    exact ⟨id, hid, rfl⟩
  · rw [values_eq]
    exact hperm.map Prod.snd

/-- Records that carry their own key are under it. -/
theorem key_of_load {f : β → κ} (hf : ∀ e id, f (kind.file e id).2 = (kind.file e id).1)
    {es : List α} {m : ExtTreeMap κ β} (h : kind.load es = .ok m) (k : κ) (v : β)
    (hv : m[k]? = some v) : f v = k := by
  obtain ⟨places, hplaces, hperm⟩ := load_eq_ok.1 h
  rw [← ExtTreeMap.mem_toList_iff_getElem?_eq_some, hperm.mem_iff, hplaces.mem_iff] at hv
  obtain ⟨e, -, hplace⟩ := hv
  obtain ⟨id, -, hfile⟩ := place_eq_ok.1 hplace
  simpa only [hfile] using hf e id

theorem exists_load_iff {es : List α} : (∃ m, kind.load es = .ok m) ↔ kind.Proper es := by
  rw [← exists_placed_iff]
  constructor
  · rintro ⟨m, hm⟩
    obtain ⟨places, hplaces, -⟩ := load_eq_ok.1 hm
    exact ⟨places, hplaces⟩
  · rintro ⟨places, hplaces⟩
    exact exists_enter hplaces fun _ _ => by simp

/-- In what was loaded, a key is taken just by an entry with the same name. -/
theorem taken_iff {es : List α} {m : ExtTreeMap κ β} (h : kind.load es = .ok m) {e : α}
    {id : PoolId} (hid : (id.ns, id.name) = kind.pool e) :
    (∃ v, m[(kind.file e id).1]? = some v) ↔ ∃ e' ∈ es, kind.name e' = kind.name e := by
  obtain ⟨places, hplaces, hperm⟩ := load_eq_ok.1 h
  simp only [← ExtTreeMap.mem_toList_iff_getElem?_eq_some, hperm.mem_iff, hplaces.mem_iff]
  constructor
  · rintro ⟨v, e', he', hplace⟩
    obtain ⟨id', hid', hfile⟩ := place_eq_ok.1 hplace
    have hkey : (kind.file e' id').1 = (kind.file e id).1 := by rw [hfile]
    exact ⟨e', he', (kind.key_eq_iff hid' hid).1 hkey⟩
  · rintro ⟨e', he', hname⟩
    obtain ⟨id', hid'⟩ := (exists_placed_iff.1 ⟨places, hplaces⟩).pools e' he'
    refine ⟨(kind.file e' id').2, e', he', place_eq_ok.2 ⟨id', hid', ?_⟩⟩
    exact Prod.ext ((kind.key_eq_iff hid' hid).2 hname) rfl

theorem load_eq_error {es : List α} {err : ManifestError} :
    kind.load es = .error err ↔ kind.FirstFault es err := by
  unfold load
  rw [enter_eq_error]
  constructor
  · rintro ⟨before, e, after, m, rfl, hbefore, he⟩
    have hproper := exists_load_iff.1 ⟨m, hbefore⟩
    rcases enterOne_eq_error.1 he with hplace | ⟨k, v, w, hplace, hk, rfl⟩
    · obtain ⟨err', hid, rfl⟩ := place_eq_error.1 hplace
      exact .badId hproper hid
    · obtain ⟨id, hid, hfile⟩ := place_eq_ok.1 hplace
      obtain rfl : (kind.file e id).1 = k := congrArg Prod.fst hfile
      exact .taken hproper hid ((taken_iff hbefore hid).1 ⟨w, hk⟩)
  · intro h
    cases h with
    | @badId before after e err' hbefore hid =>
      obtain ⟨m, hm⟩ := exists_load_iff.2 hbefore
      exact ⟨before, e, after, m, rfl, hm,
        enterOne_eq_error.2 (.inl (place_eq_error.2 ⟨err', hid, rfl⟩))⟩
    | @taken before after e id hbefore hid hearlier =>
      obtain ⟨m, hm⟩ := exists_load_iff.2 hbefore
      obtain ⟨w, hw⟩ := (taken_iff hm hid).2 hearlier
      exact ⟨before, e, after, m, rfl, hm,
        enterOne_eq_error.2 (.inr ⟨_, _, w, place_eq_ok.2 ⟨id, hid, rfl⟩, hw, rfl⟩)⟩

end Kind

namespace Manifest

theorem addRegistries_eq : ∀ (es : List RegistryEntry) (s : Store),
    addRegistries s es = (enter registryKind.place registryKind.taken s.registries es).map
      fun registries => { s with registries }
  | [], _ => rfl
  | e :: es, s => by
    have hstep : addRegistry s e =
        (enterOne registryKind.place registryKind.taken s.registries e).map
          fun registries => { s with registries } := by
      unfold addRegistry enterOne Kind.place
      simp only [registryKind]
      rcases PoolId.make e.ns e.name with err | id
      · rfl
      · simp only []
        rcases s.registries[id]? with _ | r <;> rfl
    unfold addRegistries enter
    rw [hstep]
    rcases enterOne registryKind.place registryKind.taken s.registries e with err | m
    · rfl
    · exact addRegistries_eq es _

theorem addRegisters_eq : ∀ (es : List RegisterEntry) (s : Store),
    addRegisters s es = (enter registerKind.place registerKind.taken s.registers es).map
      fun registers => { s with registers }
  | [], _ => rfl
  | e :: es, s => by
    have hstep : addRegister s e =
        (enterOne registerKind.place registerKind.taken s.registers e).map
          fun registers => { s with registers } := by
      unfold addRegister enterOne Kind.place RegisterRecord.pool
      simp only [registerKind, RegisterEntry.record, RegisterEntry.key]
      rcases PoolId.make e.ns e.registry with err | id
      · rfl
      · simp only []
        rcases s.registers[(⟨e.ns, e.name⟩ : RegisterKey)]? with _ | r <;> rfl
    unfold addRegisters enter
    rw [hstep]
    rcases enterOne registerKind.place registerKind.taken s.registers e with err | m
    · rfl
    · exact addRegisters_eq es _

/-- The two lists of a manifest are loaded one after the other, each by itself. -/
theorem store_eq (m : Manifest) :
    m.store =
      match registryKind.load m.registries with
      | .error err => .error err
      | .ok registries =>
        (registerKind.load m.registers).map fun registers => ⟨registries, registers⟩ := by
  unfold store
  rw [addRegistries_eq]
  unfold Kind.load
  simp only [Store.empty]
  rcases enter registryKind.place registryKind.taken ∅ m.registries with err | registries
  · rfl
  · exact addRegisters_eq m.registers _

theorem store_eq_ok {m : Manifest} {s : Store} : m.store = .ok s ↔
    registryKind.load m.registries = .ok s.registries ∧
      registerKind.load m.registers = .ok s.registers := by
  obtain ⟨registries, registers⟩ := s
  rw [store_eq]
  rcases registryKind.load m.registries with err | a
  · simp
  · rcases registerKind.load m.registers with err | b <;> simp [Except.map]

theorem store_eq_error {m : Manifest} {err : ManifestError} : m.store = .error err ↔
    registryKind.load m.registries = .error err ∨
      (∃ registries, registryKind.load m.registries = .ok registries) ∧
        registerKind.load m.registers = .error err := by
  rw [store_eq]
  rcases registryKind.load m.registries with err' | a
  · simp
  · rcases registerKind.load m.registers with err' | b <;> simp [Except.map]

end Manifest

theorem compareLex_eq_lt {α : Type} {f g : α → String} {a b : α} :
    compareLex (compareOn f) (compareOn g) a b = .lt ↔ f a < f b ∨ f a = f b ∧ g a < g b := by
  have hlt : ∀ s t : String, compare s t = .lt ↔ s < t := fun _ _ => compareOfLessAndEq_eq_lt
  have heq : ∀ s t : String, compare s t = .eq ↔ s = t := fun _ _ => Std.compare_eq_iff_eq
  unfold compareLex compareOn
  rw [Ordering.then_eq_lt, hlt, hlt, heq]

/-- A manifest loads just if every registry has an identity of its own, every register names a
registry with an identity, and every register has a key of its own. The store then has one record
for each entry, as declared, in the order of the identities and keys; any other order of the
entries gives the same store. Otherwise the fault is that of the first faulty entry. -/
theorem store_of_manifest (m : Manifest) :
    ((∃ s, m.store = .ok s) ↔
      registryKind.Proper m.registries ∧ registerKind.Proper m.registers) ∧
    (∀ err, m.store = .error err ↔
      registryKind.FirstFault m.registries err ∨
        registryKind.Proper m.registries ∧ registerKind.FirstFault m.registers err) ∧
    (∀ s, m.store = .ok s →
      (∃ records, s.registries.values.Perm records ∧
        List.Forall₂ (fun e r => ∃ id : PoolId, (id.ns, id.name) = (e.ns, e.name) ∧
          r = ⟨id, e.spec, e.ready, false, none⟩) m.registries records) ∧
      s.registries.values.map RegistryRecord.id = s.registryIds ∧
      s.registryIds.Pairwise (fun q q' => q.ns < q'.ns ∨ q.ns = q'.ns ∧ q.name < q'.name) ∧
      s.registerList.Perm (m.registers.map fun e =>
        ⟨⟨e.ns, e.name⟩, e.registry, e.selector, e.tags, false, none⟩) ∧
      s.registerList.Pairwise (fun r r' =>
        r.key.ns < r'.key.ns ∨ r.key.ns = r'.key.ns ∧ r.key.name < r'.key.name) ∧
      ∀ m' : Manifest, m'.registries.Perm m.registries → m'.registers.Perm m.registers →
        m'.store = .ok s) ∧
    ∀ document, Manifest.read? document = some m → Manifest.load document = m.store := by
  refine ⟨?_, fun err => ?_, fun s hs => ?_, fun document hread => ?_⟩
  · rw [← Kind.exists_load_iff, ← Kind.exists_load_iff]
    constructor
    · rintro ⟨s, hs⟩
      obtain ⟨hregistries, hregisters⟩ := Manifest.store_eq_ok.1 hs
      exact ⟨⟨_, hregistries⟩, ⟨_, hregisters⟩⟩
    · rintro ⟨⟨registries, hregistries⟩, ⟨registers, hregisters⟩⟩
      exact ⟨⟨registries, registers⟩, Manifest.store_eq_ok.2 ⟨hregistries, hregisters⟩⟩
  · rw [Manifest.store_eq_error, Kind.load_eq_error, Kind.exists_load_iff, Kind.load_eq_error]
  · obtain ⟨hregistries, hregisters⟩ := Manifest.store_eq_ok.1 hs
    refine ⟨?_, ?_, ?_, ?_, ?_, fun m' hperm hperm' => ?_⟩
    · obtain ⟨records, heach, hrecords⟩ := Kind.values_of_load hregistries
      exact ⟨records, hrecords, heach⟩
    · exact map_key_values (Kind.key_of_load (fun _ _ => rfl) hregistries)
    · exact s.registries.ordered_keys.imp compareLex_eq_lt.1
    · obtain ⟨records, heach, hrecords⟩ := Kind.values_of_load hregisters
      have hmap : m.registers.map RegisterEntry.record = records := by
        rw [← List.forall₂_eq_eq_eq, List.forall₂_map_left_iff]
        exact heach.imp fun e r ⟨_, _, hr⟩ => hr.symm
      exact hmap ▸ hrecords
    · have hkeys : s.registerList.map RegisterRecord.key = s.registers.keys :=
        map_key_values (Kind.key_of_load (fun _ _ => rfl) hregisters)
      have hordered := s.registers.ordered_keys
      rw [← hkeys, List.pairwise_map] at hordered
      exact hordered.imp compareLex_eq_lt.1
    · exact Manifest.store_eq_ok.2
        ⟨Kind.load_of_perm hregistries hperm, Kind.load_of_perm hregisters hperm'⟩
  · unfold Manifest.load
    rw [hread]

/-- The second register has a key that is taken, and names a registry with a blank in its name; the
third one has only the key. The blank is what is wrong with the manifest. -/
theorem store_of_manifest_ranked :
    let registry : RegistryEntry := ⟨"net", "ids", true, .ofSize 2⟩
    let first : RegisterEntry := ⟨"net", "a", "ids", none, none⟩
    let second : RegisterEntry := ⟨"net", "a", "i ds", none, none⟩
    (∃ s, (Manifest.mk [registry] [first]).store = .ok s) ∧
      (Manifest.mk [registry] [first, second, first]).store =
        .error (.badId (.invalidPart .name .blank)) := by
  intro registry first second
  have hregistries : registryKind.Proper [registry] :=
    ⟨List.forall_mem_singleton.2 ⟨⟨"net", "ids", rfl, rfl⟩, rfl⟩, List.pairwise_singleton ..⟩
  have hregisters : registerKind.Proper [first] :=
    ⟨List.forall_mem_singleton.2 ⟨⟨"net", "ids", rfl, rfl⟩, rfl⟩, List.pairwise_singleton ..⟩
  have hblank : PoolId.make "net" "i ds" = .error (.invalidPart .name .blank) :=
    PoolId.make_eq_error.2 (.inr ⟨rfl, .blank, by decide, rfl⟩)
  have hfault : registerKind.FirstFault ([first] ++ second :: [first])
      (.badId (.invalidPart .name .blank)) := .badId hregisters hblank
  exact ⟨(store_of_manifest _).1.2 ⟨hregistries, hregisters⟩,
    ((store_of_manifest _).2.1 _).2 (.inr ⟨hregistries, hfault⟩)⟩

end IndexPools
