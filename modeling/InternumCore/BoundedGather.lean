import InternumCore.Coroutine
import Mathlib.Data.List.Nodup
import Mathlib.Data.Set.Basic
import Mathlib.Logic.Hydra
import Mathlib.Logic.Relation

/-!
# Tasks that run at once under a semaphore

A `Gather` is a list of tasks an event loop runs at once, the positions of those
that hold a permit of the semaphore they share, and the events logged so far.  In
one `Step` any task moves on: it logs an event, its call is answered, it takes a
permit when fewer than `limit` are taken, or it gives its permit back.  A real
event loop switches tasks only where one of them waits; every run of it is a run
here.  `answers i calls request` is what a call of task `i` may be answered after
the calls it has made.

For tasks whose text is `Guarded`:

* a task holds a permit from before its first call until after its last
  (`Permits`, `held_between`), so no more than `limit` calls are under way
  (`length_inFlight_le`);
* what holds of a task's calls at every end of its text bounds them at every moment
  (`Sound.requests_begin`);
* no run is infinite (`wellFounded_step`), and a run that cannot go on has ended all
  tasks (`Permits.finished_of_stuck`);
* if a task's answers depend on its own calls only, it ends with the result it
  has when it runs alone (`results_eq`);
* the tasks one after another are one of the runs (`exists_run_of_alone`).

`advance` and `schedule` take the steps in an order that is given.
-/

open Relation

namespace Gather

/-- A task: what it has still to do, and the calls it has been answered. -/
structure Member (ρ β η α : Type) where
  now : Coroutine ρ β η α
  calls : List (ρ × β) := []

/-- The requests a task has made; the last may not be answered yet. -/
def Member.requests {ρ β η α : Type} (m : Member ρ β η α) : List ρ :=
  m.calls.map Prod.fst ++ m.now.pending.toList

end Gather

/-- Tasks that run at once. -/
structure Gather (ρ β η α : Type) where
  members : List (Gather.Member ρ β η α)
  /-- The tasks that hold a permit. -/
  holders : List ℕ := []
  log : List η := []

namespace Gather
open Coroutine

variable {ρ β η α : Type}

/-- All tasks at their start. -/
def start (texts : List (Coroutine ρ β η α)) : Gather ρ β η α where
  members := texts.map fun text => { now := text }

/-- Some task moves on. -/
inductive Step (limit : ℕ) (answers : ℕ → List (ρ × β) → ρ → Set β) :
    Gather ρ β η α → Gather ρ β η α → Prop
  | emit {s i event rest calls} (h : s.members[i]? = some ⟨.emit event rest, calls⟩) :
      Step limit answers s
        { s with members := s.members.set i ⟨rest, calls⟩, log := s.log ++ [event] }
  | reply {s i request resume calls reply} (h : s.members[i]? = some ⟨.call request resume, calls⟩)
      (hreply : reply ∈ answers i calls request) :
      Step limit answers s
        { s with members := s.members.set i ⟨resume reply, calls ++ [(request, reply)]⟩ }
  | acquire {s i rest calls} (h : s.members[i]? = some ⟨.acquire rest, calls⟩)
      (free : s.holders.length < limit) :
      Step limit answers s
        { s with members := s.members.set i ⟨rest, calls⟩, holders := i :: s.holders }
  | release {s i rest calls} (h : s.members[i]? = some ⟨.release rest, calls⟩) :
      Step limit answers s
        { s with members := s.members.set i ⟨rest, calls⟩, holders := s.holders.erase i }

/-- A run of the tasks, from one moment to a later one. -/
abbrev Run (limit : ℕ) (answers : ℕ → List (ρ × β) → ρ → Set β) :
    Gather ρ β η α → Gather ρ β η α → Prop :=
  ReflTransGen (Step limit answers)

/-- The tasks with a call under way. -/
def inFlight (s : Gather ρ β η α) : List ℕ :=
  (List.range s.members.length).filter fun i => (s.members[i]?.bind (·.now.pending)).isSome

/-- Every task has ended. -/
def Finished (s : Gather ρ β η α) : Prop := ∀ m ∈ s.members, ∃ a, m.now = .done a

/-- The results of the tasks that have ended, in the order of the tasks. -/
def results (s : Gather ρ β η α) : List α := s.members.filterMap (·.now.result?)

/-- Where each task stands with its permit. -/
def stageOf (members : List (Member ρ β η α)) (i : ℕ) : Stage :=
  members[i]?.elim .after (·.now.stage)

section Members

variable {members : List (Member ρ β η α)} {s s' t u : Gather ρ β η α} {i j : ℕ}
  {m m' : Member ρ β η α}

theorem getElem?_set_member (h : members[i]? = some m) :
    (members.set i m')[j]? = if j = i then some m' else members[j]? := by
  have hi : i < members.length := (List.getElem?_eq_some_iff.mp h).1
  simp only [List.getElem?_set, hi, if_true]
  by_cases hj : j = i
  · rw [if_pos hj.symm, if_pos hj]
  · rw [if_neg (Ne.symm hj), if_neg hj]

theorem stageOf_eq (h : members[i]? = some m) : stageOf members i = m.now.stage := by
  simp [stageOf, h]

theorem stageOf_set (h : members[i]? = some m) :
    stageOf (members.set i m') j = if j = i then m'.now.stage else stageOf members j := by
  unfold stageOf
  rw [getElem?_set_member h]
  by_cases hj : j = i <;> simp [hj]

theorem exists_of_stageOf_holding (h : stageOf members i = .holding) :
    ∃ m, members[i]? = some m ∧ m.now.stage = .holding := by
  unfold stageOf at h
  rcases hm : members[i]? with _ | m
  · rw [hm] at h
    cases h
  · rw [hm] at h
    exact ⟨m, rfl, h⟩

theorem mem_inFlight : i ∈ s.inFlight ↔
    ∃ m request, s.members[i]? = some m ∧ m.now.pending = some request := by
  unfold inFlight
  rw [List.mem_filter, List.mem_range]
  constructor
  · rintro ⟨hi, h⟩
    rw [List.getElem?_eq_getElem hi, Option.bind_some, Option.isSome_iff_exists] at h
    obtain ⟨request, h⟩ := h
    exact ⟨_, request, List.getElem?_eq_getElem hi, h⟩
  · rintro ⟨m, request, hm, h⟩
    refine ⟨(List.getElem?_eq_some_iff.mp hm).1, ?_⟩
    rw [hm, Option.bind_some, h]
    rfl

/-! ## What one task does in a step -/

/-- A task moves on. -/
inductive Turn (answers : List (ρ × β) → ρ → Set β) : Member ρ β η α → Member ρ β η α → Prop
  | emit {event rest calls} : Turn answers ⟨.emit event rest, calls⟩ ⟨rest, calls⟩
  | reply {request resume calls reply} (h : reply ∈ answers calls request) :
      Turn answers ⟨.call request resume, calls⟩ ⟨resume reply, calls ++ [(request, reply)]⟩
  | acquire {rest calls} : Turn answers ⟨.acquire rest, calls⟩ ⟨rest, calls⟩
  | release {rest calls} : Turn answers ⟨.release rest, calls⟩ ⟨rest, calls⟩

variable {limit : ℕ} {answers : ℕ → List (ρ × β) → ρ → Set β}

/-- A step is a turn of one task, and the other tasks stay as they are. -/
theorem Step.turn (h : Step limit answers s s') : ∃ i m m', s.members[i]? = some m ∧
    Turn (answers i) m m' ∧ s'.members = s.members.set i m' := by
  cases h with
  | emit h => exact ⟨_, _, _, h, .emit, rfl⟩
  | reply h hreply => exact ⟨_, _, _, h, .reply hreply, rfl⟩
  | acquire h _ => exact ⟨_, _, _, h, .acquire, rfl⟩
  | release h => exact ⟨_, _, _, h, .release, rfl⟩

/-- What every turn of a task keeps, a run keeps of all tasks. -/
theorem run_members {P : ℕ → Member ρ β η α → Prop}
    (hturn : ∀ i m m', Turn (answers i) m m' → P i m → P i m')
    (hs : ∀ i m, s.members[i]? = some m → P i m) (h : Run limit answers s s') :
    ∀ i m, s'.members[i]? = some m → P i m := by
  induction h with
  | refl => exact hs
  | tail _ hstep ih =>
    obtain ⟨i, m, m', hm, hmm', heq⟩ := hstep.turn
    intro j n hn
    rw [heq, getElem?_set_member hm] at hn
    by_cases hj : j = i
    · rw [if_pos hj] at hn
      obtain rfl := Option.some.inj hn
      exact hj ▸ hturn i m m' hmm' (ih i m hm)
    · rw [if_neg hj] at hn
      exact ih j n hn

theorem length_members_of_run (h : Run limit answers s s') :
    s'.members.length = s.members.length := by
  induction h with
  | refl => rfl
  | tail _ hstep ih =>
    obtain ⟨i, m, m', -, -, heq⟩ := hstep.turn
    rw [heq, List.length_set, ih]

/-! ## Guarded tasks -/

/-- Every task is guarded, with its calls so far in front. -/
def Sound (Q : List (ρ × β) → α → Prop) (s : Gather ρ β η α) : Prop :=
  ∀ (i : ℕ) (m : Member ρ β η α), s.members[i]? = some m →
    m.now.Guarded fun calls a => Q (m.calls ++ calls) a

variable {Q : List (ρ × β) → α → Prop}

theorem sound_start {texts : List (Coroutine ρ β η α)} (h : ∀ text ∈ texts, text.Guarded Q) :
    Sound Q (start texts) := by
  intro i m hm
  obtain ⟨text, htext, rfl⟩ := List.mem_map.mp (List.mem_of_getElem? hm)
  exact h text htext

theorem Turn.guarded {answers : List (ρ × β) → ρ → Set β} (h : Turn answers m m')
    (hm : m.now.Guarded fun calls a => Q (m.calls ++ calls) a) :
    m'.now.Guarded fun calls a => Q (m'.calls ++ calls) a := by
  cases h with
  | emit => exact hm
  | reply _ => exact (hm _).2.mono fun calls a hQ => by simpa using hQ
  | acquire => exact hm.2
  | release => exact hm.2

theorem Sound.run (h : Sound Q s) (hrun : Run limit answers s s') : Sound Q s' :=
  run_members (P := fun _ m => m.now.Guarded fun calls a => Q (m.calls ++ calls) a)
    (fun _ _ _ hturn hm => hturn.guarded hm) h hrun

/-- The requests of a task so far begin those of an end of its text. -/
theorem Sound.requests_begin [Nonempty β] (h : Sound Q s) (hm : s.members[i]? = some m) :
    ∃ calls a, Q calls a ∧ m.requests <+: calls.map Prod.fst := by
  obtain ⟨calls, a, hQ, hpending⟩ := (h i m hm).exists_end
  refine ⟨m.calls ++ calls, a, hQ, ?_⟩
  rw [List.map_append]
  exact (List.prefix_append_right_inj _).mpr hpending

/-- A task that has ended has a result its calls allow. -/
theorem Sound.of_done (h : Sound Q s) (hm : s.members[i]? = some m) {a : α}
    (ha : m.now = .done a) : Q m.calls a := by
  have hdone := h i m hm
  rw [ha] at hdone
  simpa [Guarded] using hdone

/-! ## Permits -/

/-- No more than `limit` permits are taken, by the tasks that stand where they
hold one. -/
structure Permits (limit : ℕ) (s : Gather ρ β η α) : Prop where
  nodup : s.holders.Nodup
  bound : s.holders.length ≤ limit
  mem_iff : ∀ i, i ∈ s.holders ↔ stageOf s.members i = .holding

/-- Where no permit is taken and none given back, every task stays where it stands. -/
theorem Permits.same (h : Permits limit s) (hm : s.members[i]? = some m)
    (hmembers : s'.members = s.members.set i m') (hholders : s'.holders = s.holders)
    (hstage : m'.now.stage = m.now.stage) : Permits limit s' where
  nodup := hholders ▸ h.nodup
  bound := hholders ▸ h.bound
  mem_iff j := by
    rw [hholders, hmembers, stageOf_set hm, hstage, h.mem_iff]
    by_cases hj : j = i
    · rw [if_pos hj, hj, stageOf_eq hm]
    · rw [if_neg hj]

theorem Permits.step (h : Permits limit s) (hs : Sound Q s) (hstep : Step limit answers s s') :
    Permits limit s' := by
  cases hstep with
  | emit hm => exact h.same hm rfl rfl rfl
  | reply hm _ => exact h.same hm rfl rfl (hs _ _ hm _).1
  | @acquire i rest calls hm free =>
    -- the task was waiting, so it is not among the holders yet
    have hnot : i ∉ s.holders := by
      rw [h.mem_iff, stageOf_eq hm]
      simp [Coroutine.stage]
    refine ⟨List.nodup_cons.mpr ⟨hnot, h.nodup⟩, free, fun j => ?_⟩
    show j ∈ i :: s.holders ↔ stageOf (s.members.set i ⟨rest, calls⟩) j = .holding
    rw [stageOf_set hm, List.mem_cons, h.mem_iff]
    by_cases hj : j = i
    · simp [hj, (hs _ _ hm).1]
    · simp [hj]
  | @release i rest calls hm =>
    refine ⟨h.nodup.erase i, List.length_erase_le.trans h.bound, fun j => ?_⟩
    show j ∈ s.holders.erase i ↔ stageOf (s.members.set i ⟨rest, calls⟩) j = .holding
    rw [stageOf_set hm, h.nodup.mem_erase_iff, h.mem_iff]
    by_cases hj : j = i
    · simp [hj, (hs _ _ hm).1]
    · simp [hj]

theorem Permits.run (h : Permits limit s) (hs : Sound Q s) (hrun : Run limit answers s s') :
    Permits limit s' := by
  induction hrun with
  | refl => exact h
  | tail hrun hstep ih => exact ih.step (hs.run hrun) hstep

/-- A call is made under a permit. -/
theorem Permits.mem_of_inFlight (h : Permits limit s) (hi : i ∈ s.inFlight) : i ∈ s.holders := by
  obtain ⟨m, request, hm, hpending⟩ := mem_inFlight.mp hi
  rw [h.mem_iff, stageOf_eq hm]
  rcases m with ⟨_ | _ | _ | _ | _, _⟩ <;> first | rfl | cases hpending

/-- A task that has ended has given its permit back. -/
theorem Permits.not_mem_of_done (h : Permits limit s) (hm : s.members[i]? = some m) {a : α}
    (ha : m.now = .done a) : i ∉ s.holders := by
  rw [h.mem_iff, stageOf_eq hm, ha]
  simp [Coroutine.stage]

/-- No more calls are under way than there are permits. -/
theorem Permits.length_inFlight_le (h : Permits limit s) : s.inFlight.length ≤ limit := by
  have hnodup : s.inFlight.Nodup := List.nodup_range.filter _
  have hsub : s.inFlight ⊆ s.holders := fun _ hi => h.mem_of_inFlight hi
  exact (List.subperm_of_subset hnodup hsub).length_le.trans h.bound

theorem Turn.rank_le {answers : List (ρ × β) → ρ → Set β} (h : Turn answers m m')
    (hm : m.now.Guarded fun calls a => Q (m.calls ++ calls) a) :
    m.now.stage.rank ≤ m'.now.stage.rank := by
  cases h with
  | emit => exact Nat.le_refl _
  | reply _ =>
    show Stage.holding.rank ≤ _
    rw [(hm _).1]
  | acquire => exact Nat.zero_le _
  | release =>
    show Stage.holding.rank ≤ _
    rw [hm.1]
    exact Nat.le_succ 1

/-- No task goes back behind the stage it has reached. -/
theorem rank_le_of_run (hs : Sound Q s) (hrun : Run limit answers s s') (i : ℕ) :
    (stageOf s.members i).rank ≤ (stageOf s'.members i).rank := by
  induction hrun with
  | refl => exact Nat.le_refl _
  | @tail t t' hrun hstep ih =>
    refine ih.trans ?_
    obtain ⟨j, m, m', hm, hturn, heq⟩ := hstep.turn
    rw [heq, stageOf_set hm]
    by_cases hi : i = j
    · rw [if_pos hi, hi, stageOf_eq hm]
      exact hturn.rank_le ((hs.run hrun) j m hm)
    · rw [if_neg hi]

/-- A permit that is held at two moments is held at every moment between. -/
theorem Permits.held_between (h : Permits limit s) (hs : Sound Q s) (hst : Run limit answers s t)
    (htu : Run limit answers t u) (his : i ∈ s.holders) (hiu : i ∈ u.holders) : i ∈ t.holders := by
  have ht := h.run hs hst
  have hu := ht.run (hs.run hst) htu
  rw [h.mem_iff, Stage.eq_holding_iff] at his
  rw [hu.mem_iff, Stage.eq_holding_iff] at hiu
  rw [ht.mem_iff, Stage.eq_holding_iff]
  have hle := rank_le_of_run hs hst i
  have hle' := rank_le_of_run (hs.run hst) htu i
  omega

theorem permits_start {texts : List (Coroutine ρ β η α)}
    (h : ∀ text ∈ texts, text.stage = .before) : Permits limit (start texts) where
  nodup := List.nodup_nil
  bound := Nat.zero_le _
  mem_iff i := by
    constructor
    · intro hi
      cases hi
    · intro hi
      obtain ⟨m, hm, hstage⟩ := exists_of_stageOf_holding hi
      obtain ⟨text, htext, rfl⟩ := List.mem_map.mp (List.mem_of_getElem? hm)
      rw [h text htext] at hstage
      cases hstage

/-! ## Every run ends, and ends all tasks -/

/-- A task that holds a permit can move on. -/
theorem exists_step_of_holding (hanswers : ∀ i calls request, (answers i calls request).Nonempty)
    (hm : s.members[i]? = some m) (hstage : m.now.stage = .holding) :
    ∃ s', Step limit answers s s' := by
  obtain ⟨now, calls⟩ := m
  cases now with
  | done a => cases hstage
  | emit event rest => exact ⟨_, .emit hm⟩
  | call request resume =>
    obtain ⟨reply, hreply⟩ := hanswers i calls request
    exact ⟨_, .reply hm hreply⟩
  | acquire rest => cases hstage
  | release rest => exact ⟨_, .release hm⟩

/-- Tasks do not wait for each other for ever: where one waits for a permit and
none is free, a holder moves on. -/
theorem Permits.finished_of_stuck (h : Permits limit s) (hlimit : 0 < limit)
    (hanswers : ∀ i calls request, (answers i calls request).Nonempty)
    (hstuck : ∀ s', ¬ Step limit answers s s') : s.Finished := by
  intro m hmem
  obtain ⟨i, hm⟩ := List.mem_iff_getElem?.mp hmem
  obtain ⟨now, calls⟩ := m
  cases now with
  | done a => exact ⟨a, rfl⟩
  | emit event rest => exact (hstuck _ (.emit hm)).elim
  | call request resume =>
    obtain ⟨reply, hreply⟩ := hanswers i calls request
    exact (hstuck _ (.reply hm hreply)).elim
  | acquire rest =>
    by_cases free : s.holders.length < limit
    · exact (hstuck _ (.acquire hm free)).elim
    · have hpos : 0 < s.holders.length := by omega
      obtain ⟨j, hj⟩ := List.exists_mem_of_length_pos hpos
      obtain ⟨n, hn, hstage⟩ := exists_of_stageOf_holding ((h.mem_iff j).mp hj)
      obtain ⟨s', hstep⟩ := exists_step_of_holding hanswers hn hstage
      exact (hstuck s' hstep).elim
  | release rest => exact (hstuck _ (.release hm)).elim

/-- What is left of a text after one move. -/
inductive Below : Coroutine ρ β η α → Coroutine ρ β η α → Prop
  | emit {event rest} : Below rest (.emit event rest)
  | call {request resume reply} : Below (resume reply) (.call request resume)
  | acquire {rest} : Below rest (.acquire rest)
  | release {rest} : Below rest (.release rest)

theorem wellFounded_below : WellFounded (Below (ρ := ρ) (β := β) (η := η) (α := α)) := by
  refine ⟨fun x => ?_⟩
  induction x with
  | done a => exact ⟨_, fun y h => by cases h⟩
  | emit event rest ih => exact ⟨_, fun y h => by cases h; exact ih⟩
  | call request resume ih => exact ⟨_, fun y h => by cases h; exact ih _⟩
  | acquire rest ih => exact ⟨_, fun y h => by cases h; exact ih⟩
  | release rest ih => exact ⟨_, fun y h => by cases h; exact ih⟩

theorem Turn.below {answers : List (ρ × β) → ρ → Set β} (h : Turn answers m m') :
    Below m'.now m.now := by
  cases h with
  | emit => exact .emit
  | reply _ => exact .call
  | acquire => exact .acquire
  | release => exact .release

/-- The texts that are left. -/
def left (s : Gather ρ β η α) : Multiset (Coroutine ρ β η α) := ↑(s.members.map (·.now))

theorem Step.cutExpand (h : Step limit answers s s') : CutExpand Below s'.left s.left := by
  obtain ⟨i, m, m', hm, hturn, heq⟩ := h.turn
  obtain ⟨hi, rfl⟩ := List.getElem?_eq_some_iff.mp hm
  refine ⟨{m'.now}, s.members[i].now, ?_, ?_⟩
  · intro x hx
    rw [Multiset.mem_singleton.mp hx]
    exact hturn.below
  · have hsplit : s.members = s.members.take i ++ s.members[i] :: s.members.drop (i + 1) := by
      rw [List.getElem_cons_drop, List.take_append_drop]
    have hset : s'.members = s.members.take i ++ m' :: s.members.drop (i + 1) := by
      rw [heq, List.set_eq_take_append_cons_drop, if_pos hi]
    have hleft : s.left = ↑((s.members.take i).map (·.now)) +
        ({s.members[i].now} + ↑((s.members.drop (i + 1)).map (·.now))) := by
      conv_lhs => rw [left, hsplit]
      simp only [List.map_append, List.map_cons, ← Multiset.coe_add, ← Multiset.cons_coe,
        Multiset.singleton_add]
    have hleft' : s'.left = ↑((s.members.take i).map (·.now)) +
        ({m'.now} + ↑((s.members.drop (i + 1)).map (·.now))) := by
      rw [left, hset]
      simp only [List.map_append, List.map_cons, ← Multiset.coe_add, ← Multiset.cons_coe,
        Multiset.singleton_add]
    rw [hleft, hleft']
    ac_rfl

/-- No run is infinite. -/
theorem wellFounded_step :
    WellFounded fun s' s : Gather ρ β η α => Step limit answers s s' :=
  Subrelation.wf (fun h => h.cutExpand) (InvImage.wf left wellFounded_below.cutExpand)

/-! ## Tasks that are answered for themselves -/

/-- The result of a text that runs alone. -/
def solo (answer : List (ρ × β) → ρ → β) : List (ρ × β) → Coroutine ρ β η α → α
  | _, .done a => a
  | calls, .emit _ rest => solo answer calls rest
  | calls, .call request resume =>
    solo answer (calls ++ [(request, answer calls request)]) (resume (answer calls request))
  | calls, .acquire rest => solo answer calls rest
  | calls, .release rest => solo answer calls rest

/-- Only what a task itself has asked and been answered decides its answers. -/
def own (answer : ℕ → List (ρ × β) → ρ → β) : ℕ → List (ρ × β) → ρ → Set β :=
  fun i calls request => {answer i calls request}

theorem Turn.solo {answer : List (ρ × β) → ρ → β}
    (h : Turn (fun calls request => {answer calls request}) m m') :
    solo answer m'.calls m'.now = solo answer m.calls m.now := by
  cases h with
  | emit => rfl
  | reply hreply =>
    rw [Set.mem_singleton_iff.mp hreply]
    rfl
  | acquire => rfl
  | release => rfl

/-- **Every order of steps has the same results**: those of the tasks alone. -/
theorem results_eq {answer : ℕ → List (ρ × β) → ρ → β} {texts : List (Coroutine ρ β η α)}
    (hrun : Run limit (own answer) (start texts) s) (hs : s.Finished) :
    s.results = texts.mapIdx fun i text => Gather.solo (answer i) [] text := by
  -- the invariant: what a task would come to alone from here is what it would have come to
  have hsolo : ∀ i m, s.members[i]? = some m →
      texts[i]?.map (Gather.solo (answer i) []) = some (Gather.solo (answer i) m.calls m.now) := by
    refine run_members ?_ ?_ hrun
    · intro i m m' hturn hm
      rw [hm, hturn.solo]
    · intro i m hm
      rw [start, List.getElem?_map, Option.map_eq_some_iff] at hm
      obtain ⟨text, htext, rfl⟩ := hm
      rw [htext]
      rfl
  have hlength : s.members.length = texts.length := by
    rw [length_members_of_run hrun, start, List.length_map]
  have hresults : s.results = s.members.map fun m => Gather.solo (answer 0) m.calls m.now := by
    unfold results
    rw [← List.filterMap_eq_map]
    refine List.filterMap_congr fun m hm => ?_
    obtain ⟨a, ha⟩ := hs m hm
    rw [Function.comp_apply, ha]
    rfl
  rw [hresults]
  refine List.ext_getElem? fun i => ?_
  rw [List.getElem?_map, List.getElem?_mapIdx]
  rcases hm : s.members[i]? with _ | m
  · have hi : texts[i]? = none := by
      rw [List.getElem?_eq_none_iff] at hm ⊢
      omega
    rw [hi]
    rfl
  · -- a task that has ended has its result, whoever answers it
    obtain ⟨a, ha⟩ := hs m (List.mem_of_getElem? hm)
    rw [hsolo i m hm, Option.map_some, ha]
    rfl

/-! ## One task after another -/

/-- Task `i` can go on to its end while the others stay as they are, and then no
permit is taken. -/
def EndsWith (limit : ℕ) (s : Gather ρ β η α) (i : ℕ) (a : α) : Prop :=
  ∃ s' calls, Run limit (fun _ _ _ => Set.univ) s s' ∧
    s'.members = s.members.set i ⟨.done a, calls⟩ ∧ s'.holders = []

theorem EndsWith.of_step {a : α} (hstep : Step limit (fun _ _ _ => Set.univ) s t)
    (hmembers : t.members = s.members.set i m) (h : EndsWith limit t i a) :
    EndsWith limit s i a := by
  obtain ⟨s', calls, hrun, heq, hholders⟩ := h
  exact ⟨s', calls, .head hstep hrun, by rw [heq, hmembers, List.set_set], hholders⟩

section Alone

variable {σ : Type} {onCall : ρ → StateM σ β} {onEmit : η → StateM σ Unit}

/-- A task that nobody holds up ends with the result it has alone, whatever state
answers it. -/
theorem endsWith_perform {x : Coroutine ρ β η α} {calls : List (ρ × β)} (hlimit : 0 < limit)
    (hx : x.Guarded Q) (hm : s.members[i]? = some ⟨x, calls⟩)
    (hholders : s.holders = if x.stage = .holding then [i] else []) (w : σ) :
    EndsWith limit s i (x.perform onCall onEmit w).1 := by
  have hi := (List.getElem?_eq_some_iff.mp hm).1
  -- on the task: at each of its steps it may move, whoever holds the permits
  induction x generalizing s calls Q w with
  | done a =>
    refine ⟨s, calls, .refl, ?_, hholders⟩
    refine (List.ext_getElem? fun j => ?_).symm
    rw [getElem?_set_member hm]
    by_cases hj : j = i
    · rw [if_pos hj, hj, hm]
      rfl
    · rw [if_neg hj]
  | emit event rest ih =>
    refine EndsWith.of_step (.emit hm) rfl ?_
    refine ih hx (List.getElem?_set_self hi) ?_ _ (by simpa using hi)
    exact hholders
  | call request resume ih =>
    obtain ⟨hstage, hrest⟩ := hx (onCall request w).1
    refine EndsWith.of_step (.reply hm (Set.mem_univ (onCall request w).1)) rfl ?_
    refine ih _ hrest (List.getElem?_set_self hi) ?_ _ (by simpa using hi)
    rw [hstage]
    exact hholders
  | acquire rest ih =>
    have free : s.holders.length < limit := by
      rw [hholders]
      exact hlimit
    refine EndsWith.of_step (.acquire hm free) rfl ?_
    refine ih hx.2 (List.getElem?_set_self hi) ?_ _ (by simpa using hi)
    rw [hx.1, hholders]
    rfl
  | release rest ih =>
    refine EndsWith.of_step (.release hm) rfl ?_
    refine ih hx.2 (List.getElem?_set_self hi) ?_ _ (by simpa using hi)
    rw [hx.1, hholders]
    exact List.erase_cons_head i []

/-- The tasks behind those that have ended run one after another. -/
theorem exists_run_behind {texts : List (Coroutine ρ β η α)} {results : List α}
    {ended : List (Member ρ β η α)} (hlimit : 0 < limit)
    (h : texts.Forall₂ (fun text a => text.Guarded Q ∧ text.stage = .before ∧
      ∃ w, (text.perform onCall onEmit w).1 = a) results)
    (hended : ∀ m ∈ ended, ∃ a, m.now = .done a)
    (hs : s.members = ended ++ texts.map fun text => { now := text }) (hholders : s.holders = []) :
    ∃ s', Run limit (fun _ _ _ => Set.univ) s s' ∧ s'.Finished ∧
      s'.results = ended.filterMap (·.now.result?) ++ results := by
  induction h generalizing s ended with
  | nil =>
    rw [List.map_nil, List.append_nil] at hs
    refine ⟨s, .refl, ?_, ?_⟩
    · rw [Finished, hs]
      exact hended
    · rw [Gather.results, hs, List.append_nil]
  | @cons text a texts results halone _ ih =>
    obtain ⟨hguarded, hstage, w, rfl⟩ := halone
    have hm : s.members[ended.length]? = some { now := text } := by
      rw [hs, List.getElem?_append_right (Nat.le_refl _), Nat.sub_self]
      rfl
    have hfree : s.holders = if text.stage = .holding then [ended.length] else [] := by
      rw [hstage, hholders]
      rfl
    have hends : EndsWith limit s ended.length (text.perform onCall onEmit w).1 :=
      endsWith_perform hlimit hguarded hm hfree w
    obtain ⟨t, calls, hst, hmembers, ht⟩ := hends
    -- the task joins those that have ended
    have hsplit : t.members = (ended ++ [⟨.done (text.perform onCall onEmit w).1, calls⟩]) ++
        texts.map fun text => { now := text } := by
      rw [hmembers, hs, List.set_append_right _ _ (Nat.le_refl _), Nat.sub_self, List.map_cons,
        List.set_cons_zero, List.append_assoc]
      rfl
    have hdone : ∀ m ∈ ended ++ [⟨.done (text.perform onCall onEmit w).1, calls⟩],
        ∃ a, m.now = .done a := by
      intro m hm
      rcases List.mem_append.mp hm with hm | hm
      · exact hended m hm
      · rw [List.mem_singleton.mp hm]
        exact ⟨_, rfl⟩
    obtain ⟨s', hts', hfinished, hresults⟩ := ih hdone hsplit ht
    refine ⟨s', hst.trans hts', hfinished, ?_⟩
    rw [hresults, List.filterMap_append, List.append_assoc]
    rfl

/-- Tasks that run one after another are one of their runs: the results each has
alone are the results of some run of all. -/
theorem exists_run_of_alone (onCall : ρ → StateM σ β) (onEmit : η → StateM σ Unit)
    {texts : List (Coroutine ρ β η α)} {results : List α} (hlimit : 0 < limit)
    (h : texts.Forall₂ (fun text a => text.Guarded Q ∧ text.stage = .before ∧
      ∃ w, (text.perform onCall onEmit w).1 = a) results) :
    ∃ s, Run limit (fun _ _ _ => Set.univ) (start texts) s ∧ s.Finished ∧ s.results = results :=
  exists_run_behind hlimit h (fun _ hm => (List.not_mem_nil hm).elim) rfl rfl

end Alone

/-! ## A schedule that is given -/

/-- Task `i` moves on, if it can. -/
def advance (limit : ℕ) (answer : ℕ → List (ρ × β) → ρ → β) (s : Gather ρ β η α) (i : ℕ) :
    Option (Gather ρ β η α) :=
  match s.members[i]? with
  | none => none
  | some ⟨.done _, _⟩ => none
  | some ⟨.emit event rest, calls⟩ =>
    some { s with members := s.members.set i ⟨rest, calls⟩, log := s.log ++ [event] }
  | some ⟨.call request resume, calls⟩ =>
    let reply := answer i calls request
    some { s with members := s.members.set i ⟨resume reply, calls ++ [(request, reply)]⟩ }
  | some ⟨.acquire rest, calls⟩ =>
    if s.holders.length < limit then
      some { s with members := s.members.set i ⟨rest, calls⟩, holders := i :: s.holders }
    else none
  | some ⟨.release rest, calls⟩ =>
    some { s with members := s.members.set i ⟨rest, calls⟩, holders := s.holders.erase i }

variable {answer : ℕ → List (ρ × β) → ρ → β}

theorem step_of_advance (h : advance limit answer s i = some s') :
    Step limit (own answer) s s' := by
  unfold advance at h
  split at h
  · cases h
  · cases h
  · next hm =>
    obtain rfl := Option.some.inj h
    exact .emit hm
  · next hm =>
    obtain rfl := Option.some.inj h
    exact .reply hm rfl
  · next hm =>
    split at h
    · next free =>
      obtain rfl := Option.some.inj h
      exact .acquire hm free
    · cases h
  · next hm =>
    obtain rfl := Option.some.inj h
    exact .release hm

/-- The tasks move on in a given order. -/
def schedule (limit : ℕ) (answer : ℕ → List (ρ × β) → ρ → β) (order : List ℕ)
    (s : Gather ρ β η α) : Option (Gather ρ β η α) :=
  order.foldlM (advance limit answer) s

/-- Whether every task has ended. -/
def allDone (s : Gather ρ β η α) : Bool := s.members.all (·.now.result?.isSome)

theorem finished_of_allDone (h : s.allDone = true) : s.Finished := by
  intro m hm
  obtain ⟨a, ha⟩ := Option.isSome_iff_exists.mp (List.all_eq_true.mp h m hm)
  obtain ⟨now, calls⟩ := m
  cases now with
  | done b => exact ⟨b, rfl⟩
  | _ => cases ha

theorem run_of_schedule {order : List ℕ} (h : schedule limit answer order s = some s') :
    Run limit (own answer) s s' := by
  induction order generalizing s with
  | nil =>
    obtain rfl := Option.some.inj h
    exact .refl
  | cons i order ih =>
    rw [schedule, List.foldlM_cons] at h
    obtain ⟨t, ht, h⟩ := Option.bind_eq_some_iff.mp h
    exact .head (step_of_advance ht) (ih h)

end Members
end Gather
