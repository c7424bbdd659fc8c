import InternumCore.Program

/-!
# Coroutines

A `Coroutine ρ β η α` is the text of one task of an event loop: it calls out with
a request of type `ρ` and goes on with the reply of type `β`, it logs events of
type `η`, it takes a permit of a semaphore and gives it back, and it ends with a
result of type `α`.  What a call is answered, and what other tasks do meanwhile,
is not part of it.  A task that may raise an `ε` is a `Raising` coroutine, whose
result is an `Except ε α`.

`Talks x Q` is the rule set for the inside of an `async with`: `x` leaves the
permit alone, and whatever it is answered it ends with a result that `Q` allows
for the calls it made.  `Guarded x Q` is the same for a whole task, which takes
its permit once before its first call and gives it back once after its last; a
`withPermit` block is guarded (`Talks.guarded`).

`perform` runs a coroutine against a state that answers its calls, one after
another, and carries a raising coroutine to the `Program` of its steps.
-/

/-- The text of one task. -/
inductive Coroutine (ρ β η α : Type) where
  | done (result : α)
  | emit (event : η) (rest : Coroutine ρ β η α)
  | call (request : ρ) (resume : β → Coroutine ρ β η α)
  | acquire (rest : Coroutine ρ β η α)
  | release (rest : Coroutine ρ β η α)

namespace Coroutine

variable {ρ β η ε σ α γ : Type}

/-- Goes on with the result. -/
def bind : Coroutine ρ β η α → (α → Coroutine ρ β η γ) → Coroutine ρ β η γ
  | done a, f => f a
  | emit event rest, f => emit event (rest.bind f)
  | call request resume, f => call request fun reply => (resume reply).bind f
  | acquire rest, f => acquire (rest.bind f)
  | release rest, f => release (rest.bind f)

instance : Monad (Coroutine ρ β η) where
  pure := done
  bind := bind

/-- The request of the call that is under way. -/
def pending : Coroutine ρ β η α → Option ρ
  | call request _ => some request
  | _ => none

/-- The result of a task that has ended. -/
def result? : Coroutine ρ β η α → Option α
  | done a => some a
  | _ => none

/-! ## What a task ends with -/

/-- The permit is left alone, and every way through ends with a result that `Q`
allows for the calls made on the way. -/
def Talks : Coroutine ρ β η α → (List (ρ × β) → α → Prop) → Prop
  | done a, Q => Q [] a
  | emit _ rest, Q => rest.Talks Q
  | call request resume, Q =>
    ∀ reply, (resume reply).Talks fun calls a => Q ((request, reply) :: calls) a
  | acquire _, _ => False
  | release _, _ => False

section Rules

variable {x : Coroutine ρ β η α} {f : α → Coroutine ρ β η γ} {Q M : List (ρ × β) → α → Prop}

theorem Talks.mono (h : x.Talks M) (hQ : ∀ calls a, M calls a → Q calls a) : x.Talks Q := by
  induction x generalizing Q M with
  | done a => exact hQ [] a h
  | emit event rest ih => exact ih h hQ
  | call request resume ih => exact fun reply => ih reply (h reply) fun calls a => hQ _ a
  | acquire rest _ => exact h
  | release rest _ => exact h

theorem Talks.bind {Q : List (ρ × β) → γ → Prop} (h : x.Talks M)
    (hf : ∀ calls a, M calls a → (f a).Talks fun calls' c => Q (calls ++ calls') c) :
    (x.bind f).Talks Q := by
  induction x generalizing Q M with
  | done a => exact hf [] a h
  | emit event rest ih => exact ih h hf
  | call request resume ih => exact fun reply => ih reply (h reply) fun calls a => hf _ a
  | acquire rest _ => exact h.elim
  | release rest _ => exact h.elim

end Rules

/-! ## Where a task stands with its permit -/

/-- Before it has taken its permit, while it holds it, after it has given it back. -/
inductive Stage where
  | before
  | holding
  | after
  deriving DecidableEq

/-- The stages in their order. -/
def Stage.rank : Stage → ℕ
  | before => 0
  | holding => 1
  | after => 2

theorem Stage.eq_holding_iff {stage : Stage} : stage = .holding ↔ stage.rank = 1 := by
  cases stage <;> simp [Stage.rank]

/-- Where a guarded task stands. -/
def stage : Coroutine ρ β η α → Stage
  | done _ => .after
  | emit _ rest => rest.stage
  | call _ _ => .holding
  | acquire _ => .before
  | release _ => .holding

/-- The permit is taken once, before the first call, and given back once, after the
last; and every way through ends with a result that `Q` allows for its calls. -/
def Guarded : Coroutine ρ β η α → (List (ρ × β) → α → Prop) → Prop
  | done a, Q => Q [] a
  | emit _ rest, Q => rest.Guarded Q
  | call request resume, Q => ∀ reply, (resume reply).stage = .holding ∧
      (resume reply).Guarded fun calls a => Q ((request, reply) :: calls) a
  | acquire rest, Q => rest.stage = .holding ∧ rest.Guarded Q
  | release rest, Q => rest.stage = .after ∧ rest.Guarded Q

section Guards

variable {x : Coroutine ρ β η α} {Q M : List (ρ × β) → α → Prop}

/-- What is said before a permit is given back is said while it is held. -/
theorem Talks.guarded (h : x.Talks Q) :
    (x.bind fun a => release (done a)).stage = .holding ∧
      (x.bind fun a => release (done a)).Guarded Q := by
  induction x generalizing Q with
  | done a => exact ⟨rfl, rfl, h⟩
  | emit event rest ih => exact ih h
  | call request resume ih => exact ⟨rfl, fun reply => ih reply (h reply)⟩
  | acquire rest _ => exact h.elim
  | release rest _ => exact h.elim

theorem Guarded.mono (h : x.Guarded M) (hQ : ∀ calls a, M calls a → Q calls a) :
    x.Guarded Q := by
  induction x generalizing Q M with
  | done a => exact hQ [] a h
  | emit event rest ih => exact ih h hQ
  | call request resume ih =>
    exact fun reply => ⟨(h reply).1, ih reply (h reply).2 fun calls a => hQ _ a⟩
  | acquire rest ih => exact ⟨h.1, ih h.2 hQ⟩
  | release rest ih => exact ⟨h.1, ih h.2 hQ⟩

/-- Some replies lead to an end; a call that is under way is the first of them. -/
theorem Guarded.exists_end [Nonempty β] (h : x.Guarded Q) :
    ∃ calls a, Q calls a ∧ x.pending.toList <+: calls.map Prod.fst := by
  induction x generalizing Q with
  | done a => exact ⟨[], a, h, List.nil_prefix⟩
  | emit event rest ih =>
    obtain ⟨calls, a, hQ, -⟩ := ih h
    exact ⟨calls, a, hQ, List.nil_prefix⟩
  | call request resume ih =>
    obtain ⟨reply⟩ := ‹Nonempty β›
    obtain ⟨calls, a, hQ, -⟩ := ih reply (h reply).2
    exact ⟨(request, reply) :: calls, a, hQ, List.prefix_append [request] _⟩
  | acquire rest ih =>
    obtain ⟨calls, a, hQ, -⟩ := ih h.2
    exact ⟨calls, a, hQ, List.nil_prefix⟩
  | release rest ih =>
    obtain ⟨calls, a, hQ, -⟩ := ih h.2
    exact ⟨calls, a, hQ, List.nil_prefix⟩

end Guards

/-! ## Tasks that raise -/

/-- A task that returns an `α` or raises an `ε`. -/
abbrev Raising (ε ρ β η α : Type) := ExceptT ε (Coroutine ρ β η) α

namespace Raising

/-- Logs an event. -/
def tell (event : η) : Raising ε ρ β η Unit := ExceptT.mk (.emit event (.done (.ok ())))

/-- Calls out; an error that comes back is raised. -/
def ask (request : ρ) : Raising ε ρ (Except ε α) η α := ExceptT.mk (.call request .done)

/-- `try: p except …`: the outcome of `p`. -/
def attempt (p : Raising ε ρ β η α) : Raising ε ρ β η (Except ε α) :=
  ExceptT.mk (p.run.bind fun outcome => .done (.ok outcome))

/-- `async with semaphore: p`: the permit is given back on every way out. -/
def withPermit (p : Raising ε ρ β η α) : Raising ε ρ β η α :=
  ExceptT.mk (.acquire (p.run.bind fun outcome => .release (.done outcome)))

variable {p : Raising ε ρ β η α} {f : α → Raising ε ρ β η γ}

theorem run_bind : (p >>= f).run = p.run.bind (ExceptT.bindCont f) := rfl

/-- A task in sequence: what it raises first is what it raises. -/
theorem talks_bind {M : List (ρ × β) → Except ε α → Prop}
    {Q : List (ρ × β) → Except ε γ → Prop} (h : p.run.Talks M)
    (hok : ∀ calls a, M calls (.ok a) → (f a).run.Talks fun calls' c => Q (calls ++ calls') c)
    (herror : ∀ calls e, M calls (.error e) → Q calls (.error e)) : (p >>= f).run.Talks Q := by
  rw [run_bind]
  refine h.bind fun calls outcome hM => ?_
  cases outcome with
  | ok a => exact hok calls a hM
  | error e =>
    show Q (calls ++ []) (.error e)
    rw [List.append_nil]
    exact herror calls e hM

theorem talks_attempt {Q : List (ρ × β) → Except ε (Except ε α) → Prop}
    (h : p.run.Talks fun calls outcome => Q calls (.ok outcome)) : (attempt p).run.Talks Q := by
  refine h.bind fun calls outcome hQ => ?_
  show Q (calls ++ []) (.ok outcome)
  rwa [List.append_nil]

theorem guarded_withPermit {Q : List (ρ × β) → Except ε α → Prop} (h : p.run.Talks Q) :
    (withPermit p).run.Guarded Q := h.guarded

end Raising

/-! ## One task alone -/

/-- Runs a task against a state that answers its calls and takes its events.  One
task alone never waits for a permit. -/
def perform (onCall : ρ → StateM σ β) (onEmit : η → StateM σ Unit) :
    Coroutine ρ β η α → StateM σ α
  | done a => pure a
  | emit event rest => do
    onEmit event
    rest.perform onCall onEmit
  | call request resume => do
    let reply ← onCall request
    (resume reply).perform onCall onEmit
  | acquire rest => rest.perform onCall onEmit
  | release rest => rest.perform onCall onEmit

section Perform

variable (onCall : ρ → StateM σ β) (onEmit : η → StateM σ Unit)

theorem perform_bind (x : Coroutine ρ β η α) (f : α → Coroutine ρ β η γ) :
    (x.bind f).perform onCall onEmit =
      x.perform onCall onEmit >>= fun a => (f a).perform onCall onEmit := by
  induction x with
  | done a => rfl
  | emit event rest ih => simp only [bind, perform, ih, bind_assoc]
  | call request resume ih => simp only [bind, perform, ih, bind_assoc]
  | acquire rest ih => exact ih
  | release rest ih => exact ih

namespace Raising

/-- The program of a raising task that runs alone. -/
def program (p : Raising ε ρ β η α) : Program σ ε α :=
  ExceptT.mk (p.run.perform onCall onEmit)

variable {onCall onEmit}

@[simp] theorem program_pure (a : α) :
    program onCall onEmit (pure a : Raising ε ρ β η α) = pure a := rfl

@[simp] theorem program_throw (e : ε) :
    program onCall onEmit (throw e : Raising ε ρ β η α) = throw e := rfl

@[simp] theorem program_bind (p : Raising ε ρ β η α) (f : α → Raising ε ρ β η γ) :
    program onCall onEmit (p >>= f) =
      program onCall onEmit p >>= fun a => program onCall onEmit (f a) := by
  apply ExceptT.ext
  rw [ExceptT.run_bind]
  refine (perform_bind onCall onEmit p.run (ExceptT.bindCont f)).trans ?_
  refine bind_congr fun outcome => ?_
  cases outcome <;> rfl

@[simp] theorem program_attempt (p : Raising ε ρ β η α) :
    program onCall onEmit (attempt p) = Program.capture (program onCall onEmit p) :=
  ExceptT.ext (perform_bind onCall onEmit p.run fun outcome => done (Except.ok outcome))

@[simp] theorem program_withPermit (p : Raising ε ρ β η α) :
    program onCall onEmit (withPermit p) = program onCall onEmit p := by
  apply ExceptT.ext
  refine (perform_bind onCall onEmit p.run fun outcome => release (done outcome)).trans ?_
  exact bind_pure _

end Raising
end Perform
end Coroutine
