import Mathlib.Data.List.AList

/-!
# Hash maps with an unspecified iteration order

A hash map is an association list with distinct keys. Lookups, insertions and removals are those of
`AList`. What a program must not rely on is the order in which the entries are visited: `HashOrder`
is an arbitrary rearrangement of lists, and a traversal takes one as an argument. A statement that
quantifies over the order holds for every order the implementation may choose.
-/

set_option autoImplicit false

namespace GenshinOs.Lib

/-- A finite map from `κ` to `ν`. -/
abbrev HashMap (κ ν : Type) := AList fun _ : κ => ν

/-- One choice of iteration order: every list is visited in a rearranged order. -/
structure HashOrder where
  arrange : {α : Type} → List α → List α
  arrange_perm : ∀ {α : Type} (l : List α), (arrange l).Perm l

/-- The order in which the entries are stored. -/
def HashOrder.stored : HashOrder where
  arrange l := l
  arrange_perm _ := List.Perm.refl _

/-- The reversed storage order. -/
def HashOrder.reversed : HashOrder where
  arrange l := l.reverse
  arrange_perm l := l.reverse_perm

theorem HashOrder.mem_arrange (ord : HashOrder) {α : Type} {a : α} {l : List α} :
    a ∈ ord.arrange l ↔ a ∈ l :=
  (ord.arrange_perm l).mem_iff

namespace HashMap

variable {κ ν : Type} [DecidableEq κ]

/-- Replace the value at a key that is present; a missing key leaves the map as it is. -/
def adjust (m : HashMap κ ν) (k : κ) (f : ν → ν) : HashMap κ ν :=
  match m.lookup k with
  | some v => m.insert k (f v)
  | none => m

/-- The entries in iteration order. -/
def iter (ord : HashOrder) (m : HashMap κ ν) : List (κ × ν) :=
  (ord.arrange m.entries).map fun e => (e.1, e.2)

/-- The first key in iteration order whose value passes the test. -/
def findKey (ord : HashOrder) (m : HashMap κ ν) (p : ν → Bool) : Option κ :=
  ((iter ord m).find? fun e => p e.2).map Prod.fst

theorem lookup_insert_eq (m : HashMap κ ν) (k k' : κ) (v : ν) :
    (m.insert k v).lookup k' = if k' = k then some v else m.lookup k' := by
  by_cases h : k' = k
  · subst h
    simp
  · simp [h, AList.lookup_insert_ne h]

/-- An entry after an insertion is the new one or was there before. -/
theorem lookup_of_insert {m : HashMap κ ν} {k k' : κ} {v v' : ν} (h : (m.insert k v).lookup k' = some v') :
    (k' = k ∧ v' = v) ∨ m.lookup k' = some v' := by
  rw [lookup_insert_eq] at h
  split at h
  · next hkey => exact Or.inl ⟨hkey, (Option.some.inj h).symm⟩
  · exact Or.inr h

/-- An entry after a value is changed, if its key is there: one from before, or the changed one. -/
theorem lookup_of_changed {m : HashMap κ ν} {target k : κ} {f : ν → ν} {v : ν}
    (h : ((m.lookup target).elim m fun old => m.insert target (f old)).lookup k = some v) :
    m.lookup k = some v ∨ target = k ∧ ∃ old, m.lookup k = some old ∧ v = f old := by
  cases hold : m.lookup target with
  | none =>
    rw [hold] at h
    exact Or.inl h
  | some old =>
    rw [hold] at h
    rcases lookup_of_insert h with ⟨rfl, rfl⟩ | hsame
    · exact Or.inr ⟨rfl, old, hold, rfl⟩
    · exact Or.inl hsame

theorem lookup_erase_eq (m : HashMap κ ν) (k k' : κ) :
    (m.erase k).lookup k' = if k' = k then none else m.lookup k' := by
  by_cases h : k' = k
  · subst h
    simp
  · simp [h, AList.lookup_erase_ne h]

theorem lookup_adjust (m : HashMap κ ν) (k k' : κ) (f : ν → ν) :
    (adjust m k f).lookup k' = if k' = k then (m.lookup k).map f else m.lookup k' := by
  unfold adjust
  cases hk : m.lookup k with
  | none =>
    by_cases h : k' = k
    · subst h
      simp [hk]
    · simp [h]
  | some v => simp [lookup_insert_eq]

/-- Removing a list of keys, one after the other. -/
theorem lookup_foldl_erase (m : HashMap κ ν) (keys : List κ) (k : κ) :
    (keys.foldl (fun m key => m.erase key) m).lookup k = if k ∈ keys then none else m.lookup k := by
  induction keys generalizing m with
  | nil => simp
  | cons key keys ih =>
    rw [List.foldl_cons, ih, lookup_erase_eq]
    by_cases hkey : k = key
    · simp [hkey]
    · simp [hkey]

/-- An insertion adds a key unless it is there. -/
theorem length_keys_insert (m : HashMap κ ν) (k : κ) (v : ν) :
    (m.insert k v).keys.length = m.keys.length + if (m.lookup k).isSome then 0 else 1 := by
  rw [AList.keys_insert, List.length_cons]
  by_cases hk : k ∈ m.keys
  · rw [if_pos (AList.lookup_isSome.2 (AList.mem_keys.2 hk)), List.length_erase_of_mem hk]
    have hpos := List.length_pos_of_mem hk
    omega
  · rw [if_neg (fun h => hk (AList.mem_keys.1 (AList.lookup_isSome.1 h))), List.erase_of_not_mem hk]

/-- A removal takes one key away, if it is there. -/
theorem length_keys_erase (m : HashMap κ ν) (k : κ) :
    (m.erase k).keys.length = m.keys.length - if (m.lookup k).isSome then 1 else 0 := by
  rw [AList.keys_erase]
  by_cases hk : k ∈ m.keys
  · rw [if_pos (AList.lookup_isSome.2 (AList.mem_keys.2 hk)), List.length_erase_of_mem hk]
  · rw [if_neg (fun h => hk (AList.mem_keys.1 (AList.lookup_isSome.1 h))), List.erase_of_not_mem hk]
    rfl

/-- A traversal visits exactly the entries of the map. -/
theorem mem_iter (ord : HashOrder) (m : HashMap κ ν) (k : κ) (v : ν) :
    (k, v) ∈ iter ord m ↔ m.lookup k = some v := by
  have hentry : (k, v) ∈ iter ord m ↔ (⟨k, v⟩ : Sigma fun _ : κ => ν) ∈ m.entries := by
    unfold iter
    rw [List.mem_map]
    constructor
    · rintro ⟨⟨k', v'⟩, he, heq⟩
      obtain ⟨rfl, rfl⟩ := Prod.mk.inj heq
      exact ord.mem_arrange.1 he
    · intro he
      exact ⟨⟨k, v⟩, ord.mem_arrange.2 he, rfl⟩
  rw [hentry]
  exact AList.mem_lookup_iff.symm

omit [DecidableEq κ] in
/-- A traversal visits the keys in some order. -/
theorem iter_keys_perm (ord : HashOrder) (m : HashMap κ ν) : ((iter ord m).map Prod.fst).Perm m.keys := by
  have hkeys : (iter ord m).map Prod.fst = (ord.arrange m.entries).map Sigma.fst := by
    rw [iter, List.map_map]
    rfl
  rw [hkeys]
  exact (ord.arrange_perm m.entries).map Sigma.fst

omit [DecidableEq κ] in
/-- A traversal visits every key once. -/
theorem nodup_iter_keys (ord : HashOrder) (m : HashMap κ ν) : ((iter ord m).map Prod.fst).Nodup :=
  (iter_keys_perm ord m).nodup_iff.2 m.keys_nodup

theorem findKey_eq_some {ord : HashOrder} {m : HashMap κ ν} {p : ν → Bool} {k : κ}
    (h : findKey ord m p = some k) : ∃ v, m.lookup k = some v ∧ p v = true := by
  unfold findKey at h
  obtain ⟨⟨k', v⟩, hfind, rfl⟩ := Option.map_eq_some_iff.1 h
  exact ⟨v, (mem_iter ord m k' v).1 (List.mem_of_find?_eq_some hfind),
    by simpa using List.find?_some hfind⟩

theorem findKey_eq_none_iff {ord : HashOrder} {m : HashMap κ ν} {p : ν → Bool} :
    findKey ord m p = none ↔ ∀ k v, m.lookup k = some v → p v = false := by
  unfold findKey
  rw [Option.map_eq_none_iff, List.find?_eq_none]
  constructor
  · intro h k v hk
    simpa using h (k, v) ((mem_iter ord m k v).2 hk)
  · rintro h ⟨k, v⟩ he
    simpa using h k v ((mem_iter ord m k v).1 he)

end HashMap

end GenshinOs.Lib
