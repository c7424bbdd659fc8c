import Mathlib.Data.List.Chain

/-!
# Joining groups with a boundary rule

Groups of elements are put together in order, and the first element of a group is left
out when it repeats the last element *kept so far* (`append`).  The loop cannot tell
that element from the last one before the group, so it trims every group against the
elements before it (`foldl_append_eq_trimmed`), however many empty groups stand in
between.  The rule one has in mind compares with the group just before it only
(`Licensed`): behind a group that is not empty the two agree (`drops_iff_licensed`),
and they agree everywhere exactly when no group behind an empty one repeats the last
element before it (`licensed_iff`).
-/

namespace BoundaryJoin

variable {α : Type*} (same : α → α → Bool)

/-- A group without its first element, if that repeats `last`. -/
def trim : Option α → List α → List α
  | some a, b :: rest => if same b a then rest else b :: rest
  | _, group => group

/-- One step of the accumulator loop. -/
def append (acc group : List α) : List α := acc ++ trim same acc.getLast? group

variable {same}

@[simp] theorem trim_none (group : List α) : trim same none group = group := by
  cases group <;> rfl

theorem trim_subset (last : Option α) (group : List α) : trim same last group ⊆ group := by
  cases last with
  | none => simp
  | some a =>
    cases group with
    | nil => simp [trim]
    | cons b rest =>
      rw [trim]
      split <;> simp

/-- Nothing comes out of the loop that no group put in. -/
theorem mem_foldl_append {groups : List (List α)} {acc : List α} {a : α}
    (h : a ∈ groups.foldl (append same) acc) : a ∈ acc ∨ ∃ group ∈ groups, a ∈ group := by
  induction groups generalizing acc with
  | nil => exact Or.inl h
  | cons group groups ih =>
    rcases ih h with hacc | ⟨g, hg, ha⟩
    · rcases List.mem_append.mp hacc with hacc | htrim
      · exact Or.inl hacc
      · exact Or.inr ⟨group, List.mem_cons_self, trim_subset _ _ htrim⟩
    · exact Or.inr ⟨g, List.mem_cons_of_mem _ hg, ha⟩

theorem length_trim_le (last : Option α) (group : List α) :
    (trim same last group).length ≤ group.length := by
  cases last with
  | none => simp
  | some a =>
    cases group with
    | nil => simp [trim]
    | cons b rest =>
      rw [trim]
      split <;> simp

section Accumulator

variable {P : α → Prop}

/-- Two last elements that no element in `P` tells apart. -/
def Agree (same : α → α → Bool) (P : α → Prop) : Option α → Option α → Prop
  | none, none => True
  | some a, some b => P a ∧ ∀ c, P c → same c a = same c b
  | _, _ => False

theorem Agree.trim_eq {x y : Option α} (h : Agree same P x y) {group : List α}
    (hP : ∀ a ∈ group, P a) : trim same x group = trim same y group := by
  match x, y, h with
  | none, none, _ => rfl
  | some a, some b, h =>
    cases group with
    | nil => rfl
    | cons c rest => rw [trim, trim, h.2 c (hP c List.mem_cons_self)]

/-- One step keeps the last kept element and the last element of the group
indistinguishable. -/
theorem Agree.step (hcongr : ∀ a b c, P a → P b → P c → same b a = true → same c a = same c b)
    {acc : List α} {last : Option α} (h : Agree same P acc.getLast? last) {group : List α}
    (hne : group ≠ []) (hP : ∀ a ∈ group, P a) :
    Agree same P (acc ++ trim same acc.getLast? group).getLast? group.getLast? := by
  have hself : ∀ l : List α, l ≠ [] → (∀ a ∈ l, P a) → Agree same P l.getLast? l.getLast? := by
    intro l hl hPl
    rw [List.getLast?_eq_some_getLast hl]
    exact ⟨hPl _ (List.getLast_mem hl), fun _ _ => rfl⟩
  obtain ⟨b, rest, rfl⟩ := List.exists_cons_of_ne_nil hne
  cases hacc : acc.getLast? with
  | none =>
    rw [trim_none, List.getLast?_append_of_ne_nil _ hne]
    exact hself _ hne hP
  | some a =>
    have ha : P a := by
      rw [hacc] at h
      match last, h with
      | some _, h => exact h.1
    rw [trim]
    split
    · next hs =>
      -- the first element goes; if it was the only one, the last kept element stands in for it
      cases rest with
      | nil =>
        rw [List.append_nil, hacc, List.getLast?_singleton]
        exact ⟨ha, fun c hc => hcongr a b c ha (hP b List.mem_cons_self) hc hs⟩
      | cons c rest =>
        rw [List.getLast?_append_of_ne_nil _ (List.cons_ne_nil c rest), List.getLast?_cons_cons]
        exact hself _ (List.cons_ne_nil c rest) fun x hx => hP x (List.mem_cons_of_mem _ hx)
    · rw [List.getLast?_append_of_ne_nil _ hne]
      exact hself _ hne hP

end Accumulator

/-! ## Which repetitions are licensed

The loop compares the first element of a group with the last element before it, however
many empty groups stand between the two; only a comparison with the group just before
it is licensed. -/

section Licence

variable (same)

/-- The elements before the group at `k`. -/
def before (groups : List (List α)) (k : Nat) : List α := (groups.take k).flatten

/-- The groups as the loop trims them. -/
def trimmed (groups : List (List α)) : List (List α) :=
  groups.mapIdx fun k group => trim same (before groups k).getLast? group

/-- The groups without the first elements of those that are marked. -/
def withoutFirsts (dropped : Nat → Bool) (groups : List (List α)) : List (List α) :=
  groups.mapIdx fun k group => if dropped k then group.tail else group

/-- The first element of a group repeats the last one of the group just before it. -/
def Licensed (groups : List (List α)) (k : Nat) : Prop :=
  ∃ j group next a b, k = j + 1 ∧ groups[j]? = some group ∧ group.getLast? = some a ∧
    groups[k]? = some next ∧ next.head? = some b ∧ same b a = true

/-- Behind an empty group nothing repeats the last element before it. -/
def NoDistantRepeat (groups : List (List α)) : Prop :=
  ∀ j next a b, groups[j]? = some [] → (before groups j).getLast? = some a →
    groups[j + 1]? = some next → next.head? = some b → same b a = false

variable {same} {groups : List (List α)} {P : α → Prop}

@[simp] theorem length_trimmed : (trimmed same groups).length = groups.length := by
  simp [trimmed]

theorem before_succ {j : Nat} {group : List α} (h : groups[j]? = some group) :
    before groups (j + 1) = before groups j ++ group := by
  rw [before, before, List.take_add_one, h, List.flatten_append]
  simp

theorem trimmed_concat (group : List α) :
    trimmed same (groups ++ [group]) =
      trimmed same groups ++ [trim same groups.flatten.getLast? group] := by
  have hbefore : ∀ k, k ≤ groups.length → before (groups ++ [group]) k = before groups k := by
    intro k hk
    rw [before, before, List.take_append_of_le_length hk]
  have hlast : before groups groups.length = groups.flatten := by
    rw [before, List.take_length]
  rw [trimmed, List.mapIdx_concat, hbefore _ (Nat.le_refl _), hlast]
  refine congrArg (· ++ _) (List.ext_getElem (by simp [trimmed]) fun k h₁ h₂ => ?_)
  rw [List.length_mapIdx] at h₁
  simp only [trimmed, List.getElem_mapIdx, hbefore k (Nat.le_of_lt h₁)]

/-- The loop trims every group against the last element before it, since it cannot
tell that from the last element it kept. -/
theorem foldl_append_eq_trimmed
    (hcongr : ∀ a b c, P a → P b → P c → same b a = true → same c a = same c b)
    (hP : ∀ group ∈ groups, ∀ a ∈ group, P a) :
    groups.foldl (append same) [] = (trimmed same groups).flatten ∧
      Agree same P (groups.foldl (append same) []).getLast? groups.flatten.getLast? := by
  -- from the front, one group after the other
  induction groups using List.reverseRecOn with
  | nil => exact ⟨rfl, trivial⟩
  | append_singleton groups group ih =>
    obtain ⟨heq, hagree⟩ := ih fun g hg => hP g (List.mem_append_left _ hg)
    have hgroup : ∀ a ∈ group, P a := hP group (by simp)
    rw [List.foldl_append, List.foldl_cons, List.foldl_nil, append, trimmed_concat,
      List.flatten_append, List.flatten_append, ← heq, hagree.trim_eq hgroup]
    refine ⟨by simp, ?_⟩
    by_cases hne : group = []
    · subst hne
      cases groups.flatten.getLast? <;> simpa [trim] using hagree
    · have hstep := hagree.step hcongr hne hgroup
      rw [hagree.trim_eq hgroup] at hstep
      simpa [List.getLast?_append_of_ne_nil _ hne] using hstep

/-- A group is trimmed against the last element before it, if the two repeat. -/
theorem trim_eq_tail {last : Option α} {group : List α} {a b : α} (ha : last = some a)
    (hb : group.head? = some b) (hs : same b a = true) : trim same last group = group.tail := by
  subst ha
  obtain ⟨rest, rfl⟩ := List.head?_eq_some_iff.mp hb
  rw [trim, if_pos hs]
  rfl

/-- Lists that are pairwise no longer than others, and together as long, are these. -/
theorem eq_of_flatten_eq {xs ys : List (List α)}
    (h : List.Forall₂ (fun x y => x.length ≤ y.length) xs ys) (he : xs.flatten = ys.flatten) :
    xs = ys := by
  have hlen : ∀ {xs ys : List (List α)},
      List.Forall₂ (fun x y => x.length ≤ y.length) xs ys →
        xs.flatten.length ≤ ys.flatten.length := by
    intro xs ys h
    induction h with
    | nil => exact Nat.le_refl _
    | cons hxy _ ih =>
      rw [List.flatten_cons, List.flatten_cons, List.length_append, List.length_append]
      omega
  induction h with
  | nil => rfl
  | @cons x y xs ys hxy hrest ih =>
    rw [List.flatten_cons, List.flatten_cons] at he
    have htotal := congrArg List.length he
    rw [List.length_append, List.length_append] at htotal
    have hle := hlen hrest
    obtain ⟨rfl, hflat⟩ := List.append_inj he (by omega)
    rw [ih hflat]

/-- A licensed repetition is dropped. -/
theorem trim_of_licensed {k : Nat} {next : List α} (hk : groups[k]? = some next)
    (h : Licensed same groups k) : trim same (before groups k).getLast? next = next.tail := by
  obtain ⟨j, group, next', a, b, rfl, hgroup, ha, hnext, hb, hs⟩ := h
  rw [hk] at hnext
  cases hnext
  have hne : group ≠ [] := by
    rintro rfl
    cases ha
  have hlast : (before groups (j + 1)).getLast? = some a := by
    rw [before_succ hgroup, List.getLast?_append_of_ne_nil _ hne, ha]
  exact trim_eq_tail hlast hb hs

/-- Licensed drops leave at least as much of every group as the loop does. -/
theorem trimmed_le_withoutFirsts {dropped : Nat → Bool}
    (h : ∀ k, dropped k = true → Licensed same groups k) :
    List.Forall₂ (fun x y => x.length ≤ y.length) (trimmed same groups)
      (withoutFirsts dropped groups) := by
  refine List.forall₂_iff_get.mpr ⟨by simp [trimmed, withoutFirsts], fun k h₁ h₂ => ?_⟩
  have hk : k < groups.length := by simpa using h₁
  simp only [trimmed, withoutFirsts, List.get_eq_getElem, List.getElem_mapIdx]
  by_cases hd : dropped k = true
  · rw [if_pos hd, trim_of_licensed (List.getElem?_eq_getElem hk) (h k hd)]
  · rw [if_neg hd]
    exact length_trim_le _ _

/-- The groups whose first element the loop drops. -/
def drops (same : α → α → Bool) (groups : List (List α)) (k : Nat) : Bool :=
  match (before groups k).getLast?, (groups[k]?).bind List.head? with
  | some a, some b => same b a
  | _, _ => false

theorem trimmed_eq_withoutFirsts :
    trimmed same groups = withoutFirsts (drops same groups) groups := by
  refine List.ext_getElem (by simp [withoutFirsts]) fun k h₁ h₂ => ?_
  have hk : k < groups.length := by simpa using h₁
  simp only [trimmed, withoutFirsts, List.getElem_mapIdx, drops, List.getElem?_eq_getElem hk,
    Option.bind_some]
  cases (before groups k).getLast? with
  | none => simp
  | some a =>
    rcases groups[k] with _ | ⟨b, rest⟩
    · simp [trim]
    · by_cases hs : same b a = true <;> simp [trim, hs]

theorem drops_zero (groups : List (List α)) : drops same groups 0 = false := by
  simp [drops, before]

/-- Only the first element of a group can be dropped. -/
theorem ne_nil_of_drops {k : Nat} (h : drops same groups k = true) :
    ∃ group, groups[k]? = some group ∧ group ≠ [] := by
  unfold drops at h
  split at h
  · next a b ha hb =>
    obtain ⟨group, hgroup, hhead⟩ := Option.bind_eq_some_iff.mp hb
    refine ⟨group, hgroup, ?_⟩
    rintro rfl
    cases hhead
  · cases h

/-- **Behind a group that is not empty** the loop drops what is licensed. -/
theorem drops_iff_licensed {j : Nat} {group : List α} (hj : groups[j]? = some group)
    (hne : group ≠ []) : drops same groups (j + 1) = true ↔ Licensed same groups (j + 1) := by
  have hlast : (before groups (j + 1)).getLast? = group.getLast? := by
    rw [before_succ hj, List.getLast?_append_of_ne_nil _ hne]
  constructor
  · intro h
    unfold drops at h
    split at h
    · next a b ha hb =>
      obtain ⟨next, hnext, hhead⟩ := Option.bind_eq_some_iff.mp hb
      exact ⟨j, group, next, a, b, rfl, hj, hlast ▸ ha, hnext, hhead, h⟩
    · cases h
  · intro h
    obtain ⟨j', group', next, a, b, heq, hgroup', ha, hnext, hb, hs⟩ := h
    obtain rfl : j = j' := Nat.succ.inj heq
    obtain rfl := Option.some.inj (hj.symm.trans hgroup')
    rw [drops, hlast, ha, hnext, Option.bind_some, hb]
    exact hs

theorem licensed_of_drops (hno : NoDistantRepeat same groups) {k : Nat}
    (h : drops same groups k = true) : Licensed same groups k := by
  cases k with
  | zero =>
    rw [drops_zero] at h
    cases h
  | succ j =>
    obtain ⟨next, hnext, -⟩ := ne_nil_of_drops h
    obtain ⟨hlt, -⟩ := List.getElem?_eq_some_iff.mp hnext
    have hj := List.getElem?_eq_getElem (show j < groups.length by omega)
    by_cases hne : groups[j] = []
    · -- behind an empty group nothing is dropped
      unfold drops at h
      split at h
      · next a b ha hb =>
        obtain ⟨next, hnext, hhead⟩ := Option.bind_eq_some_iff.mp hb
        rw [hne] at hj
        rw [before_succ hj, List.append_nil] at ha
        rw [hno j next a b hj ha hnext hhead] at h
        cases h
      · cases h
    · exact (drops_iff_licensed hj hne).mp h

/-- Nothing is missing exactly when nothing is dropped. -/
theorem flatten_trimmed_eq_iff :
    (trimmed same groups).flatten = groups.flatten ↔ ∀ k, drops same groups k = false := by
  have hle : List.Forall₂ (fun x y => x.length ≤ y.length) (trimmed same groups) groups := by
    refine List.forall₂_iff_get.mpr ⟨length_trimmed, fun k h₁ h₂ => ?_⟩
    simp only [trimmed, List.get_eq_getElem, List.getElem_mapIdx]
    exact length_trim_le _ _
  constructor
  · intro h k
    by_contra hd
    rw [Bool.not_eq_false] at hd
    obtain ⟨group, hgroup, hne⟩ := ne_nil_of_drops hd
    have hk : (trimmed same groups)[k]? = some group.tail := by
      rw [trimmed_eq_withoutFirsts, withoutFirsts, List.getElem?_mapIdx, hgroup]
      simp [hd]
    rw [eq_of_flatten_eq hle h, hgroup] at hk
    obtain ⟨a, rest, rfl⟩ := List.exists_cons_of_ne_nil hne
    exact absurd (congrArg List.length (Option.some.inj hk)) (by simp)
  · intro h
    have hself : withoutFirsts (drops same groups) groups = groups := by
      refine List.ext_getElem (by simp [withoutFirsts]) fun k h₁ h₂ => ?_
      simp [withoutFirsts, h]
    rw [trimmed_eq_withoutFirsts, hself]

/-- **All drops are licensed exactly when** no group behind an empty one repeats
the last element before it. -/
theorem licensed_iff :
    (∃ dropped : Nat → Bool,
        (trimmed same groups).flatten = (withoutFirsts dropped groups).flatten ∧
        ∀ k, dropped k = true → Licensed same groups k) ↔
      NoDistantRepeat same groups := by
  constructor
  · intro h j next a b hempty ha hnext hb
    obtain ⟨dropped, heq, hlicensed⟩ := h
    have hlists := eq_of_flatten_eq (trimmed_le_withoutFirsts hlicensed) heq
    obtain ⟨hj, hget⟩ := List.getElem?_eq_some_iff.mp hnext
    -- the loop drops the first element of this group, and so does `dropped`
    have hgroup : trim same (before groups (j + 1)).getLast? next =
        if dropped (j + 1) then next.tail else next := by
      have hk := congrArg (·[j + 1]?) hlists
      simpa [trimmed, withoutFirsts, hnext] using hk
    have hlast : (before groups (j + 1)).getLast? = some a := by
      rw [before_succ hempty, List.append_nil, ha]
    by_contra hs
    rw [Bool.not_eq_false] at hs
    rw [trim_eq_tail hlast hb hs] at hgroup
    by_cases hd : dropped (j + 1) = true
    · obtain ⟨j', group, _, a', _, hj', hgroup', ha', -⟩ := hlicensed _ hd
      cases hj'
      rw [hempty] at hgroup'
      cases hgroup'
      cases ha'
    · rw [if_neg hd] at hgroup
      obtain ⟨rest, rfl⟩ := List.head?_eq_some_iff.mp hb
      exact absurd (congrArg List.length hgroup) (by simp)
  · intro hno
    exact ⟨drops same groups, by rw [trimmed_eq_withoutFirsts], fun k hk => licensed_of_drops hno hk⟩

end Licence

end BoundaryJoin
