import Mathlib.Data.List.Nodup
import Mathlib.Data.List.Perm.Subperm

/-!
# Insertion-ordered dictionaries

A dictionary that remembers the order of its keys is an association list whose
keys are pairwise distinct.  Reading is `List.lookup`; this module adds writing
(`Dict.set`, which replaces a present key in place and appends a new one), the
laws of reading after writing, and the fact that two dictionaries of one size
have the same keys as soon as one contains the keys of the other.

Nothing here depends on what the keys and the values are.
-/

namespace Dict

variable {κ α : Type*}

/-- The keys, in insertion order. -/
def keys (d : List (κ × α)) : List κ := d.map Prod.fst

@[simp] theorem keys_nil : keys ([] : List (κ × α)) = [] := rfl

@[simp] theorem keys_cons (p : κ × α) (d : List (κ × α)) : keys (p :: d) = p.1 :: keys d := rfl

theorem mem_keys_of_mem {d : List (κ × α)} {k : κ} {v : α} (h : (k, v) ∈ d) : k ∈ keys d :=
  List.mem_map.mpr ⟨(k, v), h, rfl⟩

variable [DecidableEq κ]

/-- Assignment `d[k] = v`: a present key keeps its place, a new one comes last. -/
def set : List (κ × α) → κ → α → List (κ × α)
  | [], k, v => [(k, v)]
  | (k', w) :: d, k, v => if k' = k then (k, v) :: d else (k', w) :: set d k v

/-! ## Reading -/

theorem lookup_cons_ne {k k' : κ} (h : k ≠ k') (v : α) (d : List (κ × α)) :
    ((k', v) :: d).lookup k = d.lookup k := by
  rw [List.lookup_cons, beq_eq_false_iff_ne.mpr h]

theorem mem_of_lookup {d : List (κ × α)} {k : κ} {v : α} (h : d.lookup k = some v) :
    (k, v) ∈ d := by
  obtain ⟨l₁, l₂, rfl, _⟩ := List.lookup_eq_some_iff.mp h
  simp

theorem mem_keys_of_lookup {d : List (κ × α)} {k : κ} {v : α} (h : d.lookup k = some v) :
    k ∈ keys d :=
  mem_keys_of_mem (mem_of_lookup h)

theorem lookup_eq_none_iff {d : List (κ × α)} {k : κ} : d.lookup k = none ↔ k ∉ keys d := by
  rw [List.lookup_eq_none_iff, keys, List.mem_map]
  constructor
  · intro h hr
    obtain ⟨p, hp, rfl⟩ := hr
    simpa using h p hp
  · intro h p hp
    rw [bne_iff_ne]
    rintro rfl
    exact h ⟨p, hp, rfl⟩

theorem exists_lookup {d : List (κ × α)} {k : κ} (h : k ∈ keys d) : ∃ v, d.lookup k = some v := by
  cases hk : d.lookup k with
  | none => exact absurd h (lookup_eq_none_iff.mp hk)
  | some v => exact ⟨v, rfl⟩

/-- With distinct keys every entry is the one its key reads. -/
theorem lookup_of_mem {d : List (κ × α)} (hd : (keys d).Nodup) {k : κ} {v : α}
    (h : (k, v) ∈ d) : d.lookup k = some v := by
  induction d with
  | nil => cases h
  | cons p d ih =>
    obtain ⟨k', w⟩ := p
    rw [keys_cons, List.nodup_cons] at hd
    rcases List.mem_cons.mp h with he | hm
    · cases he
      exact List.lookup_cons_self
    · have hne : k ≠ k' := by
        rintro rfl
        exact hd.1 (mem_keys_of_mem hm)
      rw [lookup_cons_ne hne]
      exact ih hd.2 hm

/-! ## Writing -/

@[simp] theorem lookup_set_self (d : List (κ × α)) (k : κ) (v : α) :
    (set d k v).lookup k = some v := by
  induction d with
  | nil => simp [set]
  | cons p d ih =>
    obtain ⟨k', w⟩ := p
    unfold set
    split
    · exact List.lookup_cons_self
    · next h => rw [lookup_cons_ne (Ne.symm h)]; exact ih

theorem lookup_set_ne {k k' : κ} (h : k' ≠ k) (d : List (κ × α)) (v : α) :
    (set d k v).lookup k' = d.lookup k' := by
  induction d with
  | nil => simp [set, h]
  | cons p d ih =>
    obtain ⟨k'', w⟩ := p
    unfold set
    split
    · next he =>
      subst he
      rw [lookup_cons_ne h, lookup_cons_ne h]
    · by_cases hk : k' = k''
      · subst hk
        rw [List.lookup_cons_self, List.lookup_cons_self]
      · rw [lookup_cons_ne hk, lookup_cons_ne hk, ih]

/-- Writing to a present key moves nothing. -/
theorem lookup_set (d : List (κ × α)) (k k' : κ) (v : α) :
    (set d k v).lookup k' = if k' = k then some v else d.lookup k' := by
  by_cases h : k' = k
  · subst h
    rw [if_pos rfl, lookup_set_self]
  · rw [if_neg h, lookup_set_ne h]

theorem keys_set_of_mem {d : List (κ × α)} {k : κ} (h : k ∈ keys d) (v : α) :
    keys (set d k v) = keys d := by
  induction d with
  | nil => cases h
  | cons p d ih =>
    obtain ⟨k', w⟩ := p
    unfold set
    split
    · next he => subst he; rfl
    · next hne =>
      rw [keys_cons, keys_cons]
      have hm : k ∈ keys d := (List.mem_cons.mp h).resolve_left (fun he => hne he.symm)
      rw [ih hm]

theorem keys_set_of_not_mem {d : List (κ × α)} {k : κ} (h : k ∉ keys d) (v : α) :
    keys (set d k v) = keys d ++ [k] := by
  induction d with
  | nil => rfl
  | cons p d ih =>
    obtain ⟨k', w⟩ := p
    rw [keys_cons, List.mem_cons, not_or] at h
    unfold set
    rw [if_neg (Ne.symm h.1), keys_cons, keys_cons, ih h.2, List.cons_append]

theorem set_of_not_mem {d : List (κ × α)} {k : κ} (h : k ∉ keys d) (v : α) :
    set d k v = d ++ [(k, v)] := by
  induction d with
  | nil => rfl
  | cons p d ih =>
    obtain ⟨k', w⟩ := p
    rw [keys_cons, List.mem_cons, not_or] at h
    rw [set, if_neg (Ne.symm h.1), ih h.2, List.cons_append]

theorem mem_keys_set {d : List (κ × α)} {k k' : κ} {v : α} :
    k' ∈ keys (set d k v) ↔ k' = k ∨ k' ∈ keys d := by
  by_cases h : k ∈ keys d
  · rw [keys_set_of_mem h]
    constructor
    · exact Or.inr
    · rintro (rfl | hm)
      · exact h
      · exact hm
  · rw [keys_set_of_not_mem h, List.mem_append, List.mem_singleton, or_comm]

theorem nodup_keys_set {d : List (κ × α)} (h : (keys d).Nodup) (k : κ) (v : α) :
    (keys (set d k v)).Nodup := by
  by_cases hm : k ∈ keys d
  · rwa [keys_set_of_mem hm]
  · rw [keys_set_of_not_mem hm]
    exact h.append (List.nodup_singleton k) (List.disjoint_singleton.mpr hm)

/-- What is in a dictionary after an assignment was assigned, or was there. -/
theorem mem_of_mem_set {d : List (κ × α)} {k : κ} {v : α} {entry : κ × α}
    (h : entry ∈ set d k v) : entry = (k, v) ∨ entry ∈ d := by
  induction d with
  | nil => exact Or.inl (List.mem_singleton.mp h)
  | cons p d ih =>
    rw [set] at h
    split at h
    · rcases List.mem_cons.mp h with heq | hold
      · exact Or.inl heq
      · exact Or.inr (List.mem_cons_of_mem _ hold)
    · rcases List.mem_cons.mp h with heq | hrest
      · exact Or.inr (heq ▸ List.mem_cons_self)
      · exact (ih hrest).imp id (List.mem_cons_of_mem _)

/-! ## Modifying present keys -/

/-- `if k in d: d[k] = f(d[k])`. -/
def modify (d : List (κ × α)) (k : κ) (f : α → α) : List (κ × α) :=
  match d.lookup k with
  | some v => set d k (f v)
  | none => d

theorem lookup_modify_self (d : List (κ × α)) (k : κ) (f : α → α) :
    (modify d k f).lookup k = (d.lookup k).map f := by
  unfold modify
  cases h : d.lookup k with
  | none => exact h
  | some v => simp

theorem lookup_modify_ne {k k' : κ} (h : k' ≠ k) (d : List (κ × α)) (f : α → α) :
    (modify d k f).lookup k' = d.lookup k' := by
  unfold modify
  cases d.lookup k with
  | none => rfl
  | some v => exact lookup_set_ne h d _

@[simp] theorem keys_modify (d : List (κ × α)) (k : κ) (f : α → α) :
    keys (modify d k f) = keys d := by
  unfold modify
  cases h : d.lookup k with
  | none => rfl
  | some v => exact keys_set_of_mem (mem_keys_of_lookup h) _

theorem filter_set {p : κ × α → Bool} {d : List (κ × α)} {k : κ} (hk : ∀ v, p (k, v) = false)
    (v : α) : (set d k v).filter p = d.filter p := by
  induction d with
  | nil => simp [set, hk]
  | cons q d ih =>
    obtain ⟨k', w⟩ := q
    unfold set
    split
    · next h =>
      subst h
      simp [hk]
    · rw [List.filter_cons, List.filter_cons, ih]

/-- Entries under other keys stay what and where they are. -/
theorem filter_modify {p : κ × α → Bool} {d : List (κ × α)} {k : κ} (hk : ∀ v, p (k, v) = false)
    (f : α → α) : (modify d k f).filter p = d.filter p := by
  unfold modify
  cases d.lookup k with
  | none => rfl
  | some v => exact filter_set hk _

theorem modify_cons (p : κ × α) (d : List (κ × α)) (k : κ) (f : α → α) :
    modify (p :: d) k f = if p.1 = k then (k, f p.2) :: d else p :: modify d k f := by
  obtain ⟨k', w⟩ := p
  unfold modify
  by_cases h : k' = k
  · subst h
    rw [List.lookup_cons_self]
    simp [set]
  · rw [lookup_cons_ne (Ne.symm h), if_neg h]
    cases d.lookup k with
    | none => rfl
    | some v => simp [set, h]

/-- Two modifications of one key are one. -/
theorem modify_modify (d : List (κ × α)) (k : κ) (f g : α → α) :
    modify (modify d k f) k g = modify d k fun v => g (f v) := by
  induction d with
  | nil => rfl
  | cons p d ih =>
    rw [modify_cons, modify_cons]
    by_cases h : p.1 = k
    · rw [if_pos h, if_pos h, modify_cons, if_pos rfl]
    · rw [if_neg h, if_neg h, modify_cons, if_neg h, ih]

/-- Modifications of two keys may change places. -/
theorem modify_comm {k k' : κ} (hne : k ≠ k') (d : List (κ × α)) (f g : α → α) :
    modify (modify d k f) k' g = modify (modify d k' g) k f := by
  induction d with
  | nil => rfl
  | cons p d ih =>
    rw [modify_cons, modify_cons]
    by_cases h : p.1 = k
    · have h' : p.1 ≠ k' := h ▸ hne
      rw [if_pos h, if_neg h', modify_cons, if_neg hne, modify_cons, if_pos h]
    · rw [if_neg h, modify_cons, ih]
      by_cases h' : p.1 = k'
      · rw [if_pos h', if_pos h', modify_cons, if_neg (Ne.symm hne)]
      · rw [if_neg h', if_neg h', modify_cons, if_neg h]

section ModifyEach

variable {β : Type*} (f : β → α → α)

/-- Modifies every key of `ps` that is present, by the function of its entry. -/
def modifyEach (ps : List (κ × β)) (d : List (κ × α)) : List (κ × α) :=
  ps.foldl (fun d p => modify d p.1 (f p.2)) d

variable {f}

@[simp] theorem keys_modifyEach (ps : List (κ × β)) (d : List (κ × α)) :
    keys (modifyEach f ps d) = keys d := by
  induction ps generalizing d with
  | nil => rfl
  | cons p ps ih => exact (ih _).trans (keys_modify ..)

theorem lookup_modifyEach_of_not_mem {ps : List (κ × β)} {k : κ} (h : k ∉ keys ps)
    (d : List (κ × α)) : (modifyEach f ps d).lookup k = d.lookup k := by
  induction ps generalizing d with
  | nil => rfl
  | cons p ps ih =>
    rw [keys_cons, List.mem_cons, not_or] at h
    exact (ih h.2 _).trans (lookup_modify_ne h.1 d _)

theorem lookup_modifyEach {ps : List (κ × β)} (hps : (keys ps).Nodup) {k : κ} {b : β}
    (h : (k, b) ∈ ps) (d : List (κ × α)) :
    (modifyEach f ps d).lookup k = (d.lookup k).map (f b) := by
  induction ps generalizing d with
  | nil => cases h
  | cons p ps ih =>
    rw [keys_cons, List.nodup_cons] at hps
    rcases List.mem_cons.mp h with rfl | hm
    · exact (lookup_modifyEach_of_not_mem hps.1 _).trans (lookup_modify_self d k (f b))
    · have hne : k ≠ p.1 := by
        rintro rfl
        exact hps.1 (mem_keys_of_mem hm)
      exact (ih hps.2 hm _).trans (congrArg _ (lookup_modify_ne hne d _))

theorem modifyEach_modify {ps : List (κ × β)} {k : κ} (h : k ∉ keys ps) (d : List (κ × α))
    (g : α → α) : modifyEach f ps (modify d k g) = modify (modifyEach f ps d) k g := by
  induction ps generalizing d with
  | nil => rfl
  | cons p ps ih =>
    rw [keys_cons, List.mem_cons, not_or] at h
    have hfirst : modifyEach f (p :: ps) (modify d k g) =
        modifyEach f ps (modify (modify d k g) p.1 (f p.2)) := rfl
    rw [hfirst, modify_comm h.1, ih h.2]
    rfl

/-- Modifying each key a second time by functions that do nothing then does nothing. -/
theorem modifyEach_modifyEach {ps : List (κ × β)} (hps : (keys ps).Nodup)
    (hf : ∀ k b, (k, b) ∈ ps → ∀ v, f b (f b v) = f b v) (d : List (κ × α)) :
    modifyEach f ps (modifyEach f ps d) = modifyEach f ps d := by
  induction ps generalizing d with
  | nil => rfl
  | cons p ps ih =>
    obtain ⟨k, b⟩ := p
    rw [keys_cons, List.nodup_cons] at hps
    have hcons (d : List (κ × α)) :
        modifyEach f ((k, b) :: ps) d = modify (modifyEach f ps d) k (f b) :=
      modifyEach_modify hps.1 d (f b)
    rw [hcons, hcons, modifyEach_modify hps.1, ih hps.2 fun k b hm => hf k b (List.mem_cons_of_mem _ hm),
      modify_modify]
    exact congrArg _ (funext (hf k b List.mem_cons_self))

theorem filter_modifyEach {p : κ × α → Bool} {ps : List (κ × β)}
    (hp : ∀ k ∈ keys ps, ∀ v, p (k, v) = false) (d : List (κ × α)) :
    (modifyEach f ps d).filter p = d.filter p := by
  induction ps generalizing d with
  | nil => rfl
  | cons q ps ih =>
    refine (ih (fun k hk => hp k (List.mem_cons_of_mem _ hk)) _).trans ?_
    exact filter_modify (hp q.1 List.mem_cons_self) _

end ModifyEach

/-- A map on the values is seen through every key. -/
theorem lookup_map_values {β : Type*} (f : α → β) (d : List (κ × α)) (k : κ) :
    (d.map fun p => (p.1, f p.2)).lookup k = (d.lookup k).map f := by
  induction d with
  | nil => rfl
  | cons p d ih =>
    obtain ⟨k', v⟩ := p
    by_cases h : k = k'
    · subst h
      simp
    · rw [List.map_cons, lookup_cons_ne h, lookup_cons_ne h]
      exact ih

/-! ## Comparing -/

omit [DecidableEq κ] in
/-- A dictionary whose keys all occur in another one of the same size has the
same keys. -/
theorem keys_subset_of_length {d e : List (κ × α)} (hd : (keys d).Nodup)
    (hlen : d.length = e.length) (h : keys d ⊆ keys e) : keys e ⊆ keys d := by
  have hsub : (keys d).Subperm (keys e) := List.subperm_of_subset hd h
  have hle : (keys e).length ≤ (keys d).length := by simp [keys, hlen]
  exact (hsub.perm_of_length_le hle).symm.subset

end Dict
