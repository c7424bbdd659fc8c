import Mathlib.Data.List.Basic

/-!
# Programs that raise, over a state that stays

A method of a service reads and writes a shared state and may raise; what it did
to the state before it raised remains done.  `Program σ ε α` is that:
`ExceptT ε (StateM σ)`.  `capture` hands a program's outcome to the caller
(`try … except`, `gather(return_exceptions=True)`), and `ensure` runs a cleanup
on every way out (`finally`).

`Triple p s Q R` says how `p` ends when started in `s`: either it returns a value
and `Q` holds of it and of the state left behind, or it raises and `R` holds.
There is one rule for each way of building a program, and one for a loop over a
list.  `Keeps r p` is the case in which the outcome does not matter: every way out
leaves a state that `r` relates to the one before.
-/

/-- A computation over the state `σ` that returns an `α` or raises an `ε`. -/
abbrev Program (σ ε α : Type) := ExceptT ε (StateM σ) α

namespace Program

variable {σ ε α β : Type}

/-- The outcome of a program and the state it leaves. -/
def outcome (p : Program σ ε α) (s : σ) : Except ε α × σ := p.run.run s

/-- A step of the state that yields a value. -/
def step (f : σ → α × σ) : Program σ ε α := ExceptT.mk fun s => (.ok (f s).1, (f s).2)

/-- Runs `p` and returns its outcome. -/
def capture (p : Program σ ε α) : Program σ ε (Except ε α) :=
  ExceptT.mk fun s => (.ok (p.outcome s).1, (p.outcome s).2)

/-- Returns or raises a given outcome. -/
def ofExcept : Except ε α → Program σ ε α
  | .ok a => pure a
  | .error e => throw e

/-- `try: p finally: cleanup`: what the cleanup raises replaces the outcome. -/
def ensure (p : Program σ ε α) (cleanup : Program σ ε Unit) : Program σ ε α := do
  let result ← capture p
  cleanup
  ofExcept result

/-- Runs a program for every element and returns all outcomes in order. -/
def captureEach (f : α → Program σ ε β) : List α → Program σ ε (List (Except ε β))
  | [] => pure []
  | a :: rest => do
    let result ← capture (f a)
    let results ← captureEach f rest
    return result :: results

/-- Runs a program on a part of the state: `view` takes it out, `update` puts back what
has become of it, and `wrap` is what its errors are called outside. -/
def zoom {τ ε' : Type} (view : σ → τ) (update : σ → τ → σ) (wrap : ε → ε') (p : Program τ ε α) :
    Program σ ε' α :=
  ExceptT.mk fun s => ((p.outcome (view s)).1.mapError wrap, update s (p.outcome (view s)).2)

/-! ## What a program does -/

@[simp] theorem outcome_pure (a : α) (s : σ) :
    (pure a : Program σ ε α).outcome s = (.ok a, s) := rfl

@[simp] theorem outcome_throw (e : ε) (s : σ) :
    (throw e : Program σ ε α).outcome s = (.error e, s) := rfl

@[simp] theorem outcome_step (f : σ → α × σ) (s : σ) :
    (step f : Program σ ε α).outcome s = (.ok (f s).1, (f s).2) := rfl

@[simp] theorem outcome_capture (p : Program σ ε α) (s : σ) :
    (capture p).outcome s = (.ok (p.outcome s).1, (p.outcome s).2) := rfl

@[simp] theorem outcome_ofExcept (r : Except ε α) (s : σ) :
    (ofExcept r : Program σ ε α).outcome s = (r, s) := by
  cases r <;> rfl

theorem outcome_zoom {τ ε' : Type} (view : σ → τ) (update : σ → τ → σ) (wrap : ε → ε')
    (p : Program τ ε α) (s : σ) : (zoom view update wrap p).outcome s =
      ((p.outcome (view s)).1.mapError wrap, update s (p.outcome (view s)).2) := rfl

theorem outcome_bind (p : Program σ ε α) (f : α → Program σ ε β) (s : σ) :
    (p >>= f).outcome s = match p.outcome s with
      | (.ok a, s') => (f a).outcome s'
      | (.error e, s') => (.error e, s') := by
  change (ExceptT.bind p f).run.run s = _
  simp only [ExceptT.bind, outcome, ExceptT.run_mk, StateT.run_bind]
  change (match (p.run.run s).1 with
    | .ok a => f a
    | .error e => pure (.error e) : StateM σ (Except ε β)) (p.run.run s).2 = _
  rcases h : p.run.run s with ⟨_ | _, _⟩ <;> rfl

/-- A program that has returned goes on with what it returned. -/
theorem outcome_bind_ok {p : Program σ ε α} {f : α → Program σ ε β} {s t : σ} {a : α}
    (h : p.outcome s = (.ok a, t)) : (p >>= f).outcome s = (f a).outcome t := by
  rw [outcome_bind, h]

/-- Programs that agree step by step agree. -/
theorem outcome_bind_congr {p p' : Program σ ε α} {f f' : α → Program σ ε β} {s : σ}
    (hp : p.outcome s = p'.outcome s)
    (hf : ∀ a t, p.outcome s = (.ok a, t) → (f a).outcome t = (f' a).outcome t) :
    (p >>= f).outcome s = (p' >>= f').outcome s := by
  rw [outcome_bind, outcome_bind, ← hp]
  rcases h : p.outcome s with ⟨e | a, t⟩
  · rfl
  · exact hf a t h

/-- What is captured may be replaced by what has the same outcome. -/
theorem outcome_capture_congr {p p' : Program σ ε α} {s : σ} (hp : p.outcome s = p'.outcome s) :
    (capture p).outcome s = (capture p').outcome s := by
  rw [outcome_capture, outcome_capture, hp]

theorem outcome_ensure_congr {p p' : Program σ ε α} {cleanup : Program σ ε Unit} {s : σ}
    (hp : p.outcome s = p'.outcome s) :
    (ensure p cleanup).outcome s = (ensure p' cleanup).outcome s :=
  outcome_bind_congr (outcome_capture_congr hp) fun _ _ _ => rfl

/-- The cleanup starts where the program has left off. -/
theorem outcome_ensure (p : Program σ ε α) (cleanup : Program σ ε Unit) (s : σ) :
    (ensure p cleanup).outcome s = match cleanup.outcome (p.outcome s).2 with
      | (.ok _, t) => ((p.outcome s).1, t)
      | (.error e, t) => (.error e, t) := by
  unfold ensure
  rw [outcome_bind_ok (outcome_capture p s), outcome_bind]
  rcases cleanup.outcome (p.outcome s).2 with ⟨e | a, t⟩
  · rfl
  · exact outcome_ofExcept _ t

/-! ## Triples -/

/-- Started in `s`, the program returns a value with `Q` or raises with `R`. -/
def Triple (p : Program σ ε α) (s : σ) (Q : α → σ → Prop) (R : ε → σ → Prop) : Prop :=
  match p.outcome s with
  | (.ok a, s') => Q a s'
  | (.error e, s') => R e s'

namespace Triple

variable {p : Program σ ε α} {s : σ} {Q : α → σ → Prop} {R : ε → σ → Prop}

theorem of_ok (h : Triple p s Q R) {a : α} {s' : σ} (hp : p.outcome s = (.ok a, s')) : Q a s' := by
  rwa [Triple, hp] at h

theorem of_error (h : Triple p s Q R) {e : ε} {s' : σ} (hp : p.outcome s = (.error e, s')) :
    R e s' := by
  rwa [Triple, hp] at h

theorem of_outcome (hQ : ∀ a s', p.outcome s = (.ok a, s') → Q a s')
    (hR : ∀ e s', p.outcome s = (.error e, s') → R e s') : Triple p s Q R := by
  unfold Triple
  rcases h : p.outcome s with ⟨e | a, s'⟩
  · exact hR e s' h
  · exact hQ a s' h

/-- A triple speaks about every way out. -/
theorem iff_outcome : Triple p s Q R ↔
    (∀ a s', p.outcome s = (.ok a, s') → Q a s') ∧
      ∀ e s', p.outcome s = (.error e, s') → R e s' :=
  ⟨fun h => ⟨fun _ _ hp => h.of_ok hp, fun _ _ hp => h.of_error hp⟩,
    fun h => of_outcome h.1 h.2⟩

/-- What holds on every way out holds of the state left behind. -/
theorem state {I : σ → Prop} (h : Triple p s (fun _ s' => I s') fun _ s' => I s') :
    I (p.outcome s).2 := by
  unfold Triple at h
  rcases hp : p.outcome s with ⟨e | a, s'⟩ <;> rw [hp] at h <;> exact h

theorem mono {Q' : α → σ → Prop} {R' : ε → σ → Prop} (h : Triple p s Q' R')
    (hQ : ∀ a s', Q' a s' → Q a s') (hR : ∀ e s', R' e s' → R e s') : Triple p s Q R :=
  of_outcome (fun a s' hp => hQ a s' (h.of_ok hp)) fun e s' hp => hR e s' (h.of_error hp)

theorem and {Q' : α → σ → Prop} {R' : ε → σ → Prop} (h : Triple p s Q R)
    (h' : Triple p s Q' R') :
    Triple p s (fun a s' => Q a s' ∧ Q' a s') fun e s' => R e s' ∧ R' e s' :=
  of_outcome (fun _ _ hp => ⟨h.of_ok hp, h'.of_ok hp⟩) fun _ _ hp =>
    ⟨h.of_error hp, h'.of_error hp⟩

/-- Nothing is asked of `p`. -/
theorem any (p : Program σ ε α) (s : σ) : Triple p s (fun _ _ => True) fun _ _ => True :=
  of_outcome (fun _ _ _ => trivial) fun _ _ _ => trivial

theorem pure {a : α} (h : Q a s) : Triple (Pure.pure a : Program σ ε α) s Q R := h

theorem throw {e : ε} (h : R e s) : Triple (MonadExcept.throw e : Program σ ε α) s Q R := h

theorem step {f : σ → α × σ} (h : Q (f s).1 (f s).2) :
    Triple (Program.step f : Program σ ε α) s Q R := h

theorem ofExcept {r : Except ε α} (hQ : ∀ a, r = .ok a → Q a s)
    (hR : ∀ e, r = .error e → R e s) : Triple (Program.ofExcept r : Program σ ε α) s Q R := by
  cases r with
  | ok a => exact hQ a rfl
  | error e => exact hR e rfl

theorem ofExcept_eq (r : Except ε α) (s : σ) :
    Triple (Program.ofExcept r : Program σ ε α) s (fun a _ => r = .ok a) fun _ _ => True :=
  .ofExcept (fun _ h => h) fun _ _ => trivial

theorem bind {f : α → Program σ ε β} {Q : β → σ → Prop} {M : α → σ → Prop}
    (hp : Triple p s M R) (hf : ∀ a s', M a s' → Triple (f a) s' Q R) :
    Triple (p >>= f) s Q R := by
  unfold Triple
  rw [outcome_bind]
  rcases h : p.outcome s with ⟨e | a, s'⟩
  · exact hp.of_error h
  · exact hf a s' (hp.of_ok h)

/-- Nothing is asked of the first program, whatever it raises. -/
theorem bind_any {f : α → Program σ ε β} {Q : β → σ → Prop} (hR : ∀ e s', R e s')
    (hf : ∀ a s', Triple (f a) s' Q R) : Triple (p >>= f) s Q R :=
  ((any p s).mono (fun _ _ h => h) fun e s' _ => hR e s').bind fun a s' _ => hf a s'

/-- A captured program never raises. -/
theorem capture {Q : Except ε α → σ → Prop} {R' : ε → σ → Prop}
    (h : Triple p s (fun a s' => Q (.ok a) s') fun e s' => Q (.error e) s') :
    Triple (Program.capture p) s Q R' := by
  unfold Triple at h ⊢
  rw [outcome_capture]
  rcases hp : p.outcome s with ⟨e | a, s'⟩ <;> rw [hp] at h <;> exact h

/-- What follows a captured program is told how it ended. -/
theorem capture_bind {f : Except ε α → Program σ ε β} {Q' : β → σ → Prop} {R' : ε → σ → Prop}
    (h : Triple p s Q R) (hok : ∀ a s', Q a s' → Triple (f (.ok a)) s' Q' R')
    (herror : ∀ e s', R e s' → Triple (f (.error e)) s' Q' R') :
    Triple (Program.capture p >>= f) s Q' R' :=
  (capture (Q := fun r s' => Triple (f r) s' Q' R') (h.mono hok herror)).bind fun _ _ h => h

/-- The cleanup runs on every way out. -/
theorem ensure {cleanup : Program σ ε Unit} {M : Except ε α → σ → Prop}
    (hp : Triple p s (fun a s' => M (.ok a) s') fun e s' => M (.error e) s')
    (hc : ∀ r s', M r s' → Triple cleanup s'
      (fun _ s'' => (∀ a, r = .ok a → Q a s'') ∧ ∀ e, r = .error e → R e s'') R) :
    Triple (Program.ensure p cleanup) s Q R := by
  refine (capture hp).bind fun r s' hr => (hc r s' hr).bind fun _ s'' h => ?_
  exact ofExcept h.1 h.2

/-- A program on a part of the state does there what it does alone. -/
theorem zoom {τ ε' : Type} {view : σ → τ} {update : σ → τ → σ} {wrap : ε → ε'}
    {p : Program τ ε α} {R : ε' → σ → Prop}
    (h : Triple p (view s) (fun a t => Q a (update s t)) fun e t => R (wrap e) (update s t)) :
    Triple (Program.zoom view update wrap p) s Q R := by
  unfold Triple at h ⊢
  rw [outcome_zoom]
  rcases hp : p.outcome (view s) with ⟨e | a, t⟩ <;> rw [hp] at h <;> exact h

/-- The loop rule: `I d s`, of what is done and the state, is kept by every
element. -/
theorem captureEach {f : α → Program σ ε β} {I : List (α × Except ε β) → σ → Prop}
    {R : ε → σ → Prop} {l : List α}
    (hf : ∀ d a s, a ∈ l → I d s → Triple (f a) s
      (fun b s' => I (d ++ [(a, .ok b)]) s') fun e s' => I (d ++ [(a, .error e)]) s')
    {d : List (α × Except ε β)} {s : σ} (h : I d s) :
    Triple (Program.captureEach f l) s
      (fun results s' => results.length = l.length ∧ I (d ++ l.zip results) s') R := by
  induction l generalizing d s with
  | nil => exact ⟨rfl, by simpa using h⟩
  | cons a l ih =>
    refine (capture (Q := fun r s' => I (d ++ [(a, r)]) s') ?_).bind fun r s' hr => ?_
    · exact hf d a s List.mem_cons_self h
    · refine (ih (fun d b s hb => hf d b s (List.mem_cons_of_mem _ hb)) hr).bind
        fun results s'' hs => ?_
      refine pure ⟨by simp [hs.1], ?_⟩
      simpa using hs.2

/-- What every outcome of an element satisfies, the outcomes of a loop satisfy one
by one. -/
theorem captureEach_forall₂ {f : α → Program σ ε β} {r : α → Except ε β → Prop}
    {R : ε → σ → Prop} (h : ∀ a s, r a ((f a).outcome s).1) (l : List α) (s : σ) :
    Triple (Program.captureEach f l) s (fun results _ => List.Forall₂ r l results) R := by
  induction l generalizing s with
  | nil => exact .nil
  | cons a l ih =>
    refine (capture (Q := fun outcome _ => r a outcome) ?_).bind fun outcome s' hr => ?_
    · have hr := h a s
      refine of_outcome (fun b s' hb => ?_) fun e s' he => ?_
      · rwa [hb] at hr
      · rwa [he] at hr
    · exact (ih s').bind fun results _ hs => pure (.cons hr hs)

end Triple

/-! ## What every way out keeps -/

/-- Every way out of `p` leaves a state related to the one before. -/
def Keeps (r : σ → σ → Prop) (p : Program σ ε α) : Prop :=
  ∀ s, Triple p s (fun _ s' => r s s') fun _ s' => r s s'

namespace Keeps

variable {r : σ → σ → Prop}

theorem step {f : σ → α × σ} (h : ∀ s, r s (f s).2) :
    Keeps r (Program.step f : Program σ ε α) := fun s => .step (h s)

theorem capture {p : Program σ ε α} (hp : Keeps r p) : Keeps r (Program.capture p) :=
  fun s => Triple.capture (Q := fun _ s' => r s s') (hp s)

variable [Std.Refl r]

theorem pure (a : α) : Keeps r (Pure.pure a : Program σ ε α) := fun s => .pure (refl_of r s)

theorem throw (e : ε) : Keeps r (MonadExcept.throw e : Program σ ε α) :=
  fun s => .throw (refl_of r s)

theorem ofExcept (o : Except ε α) : Keeps r (Program.ofExcept o : Program σ ε α) :=
  fun s => .ofExcept (fun _ _ => refl_of r s) fun _ _ => refl_of r s

omit [Std.Refl r]
variable [IsTrans σ r]

theorem bind {p : Program σ ε α} {f : α → Program σ ε β} (hp : Keeps r p)
    (hf : ∀ a, Keeps r (f a)) : Keeps r (p >>= f) := fun s =>
  (hp s).bind fun a s' h => (hf a s').mono (fun _ _ h' => trans_of r h h') fun _ _ h' =>
    trans_of r h h'

theorem ensure [Std.Refl r] {p : Program σ ε α} {cleanup : Program σ ε Unit} (hp : Keeps r p)
    (hc : Keeps r cleanup) : Keeps r (Program.ensure p cleanup) :=
  bind (capture hp) fun o => bind hc fun _ => ofExcept o

end Keeps

/-! ## Which errors an outcome may be -/

/-- What is raised, if anything is, satisfies `P`. -/
def Raises (P : ε → Prop) (o : Except ε α) : Prop := ∀ e, o = .error e → P e

namespace Raises

variable {ε' : Type} {P : ε → Prop}

theorem ok (a : α) : Raises P (.ok a : Except ε α) := fun _ h => by cases h

theorem error {e : ε} (h : P e) : Raises P (.error e : Except ε α) := fun _ he => by cases he; exact h

theorem bind {o : Except ε α} {f : α → Except ε β} (ho : Raises P o) (hf : ∀ a, Raises P (f a)) :
    Raises P (o >>= f) := by
  cases o with
  | error e => exact fun e' h => ho e' (by cases h; rfl)
  | ok a => exact hf a

theorem map {o : Except ε α} {f : α → β} (ho : Raises P o) : Raises P (o.map f) := by
  cases o with
  | error e => exact .error (ho e rfl)
  | ok a => exact .ok (f a)

theorem mapError {P' : ε' → Prop} {o : Except ε' α} {f : ε' → ε} (ho : Raises P' o)
    (hf : ∀ e, P' e → P (f e)) : Raises P (o.mapError f) := by
  cases o with
  | error e => exact .error (hf e (ho e rfl))
  | ok a => exact .ok a

theorem mapM {f : α → Except ε β} {l : List α} (hf : ∀ a ∈ l, Raises P (f a)) :
    Raises P (l.mapM f) := by
  induction l with
  | nil => exact .ok []
  | cons a l ih =>
    rw [List.mapM_cons]
    exact .bind (hf a List.mem_cons_self) fun b =>
      .bind (ih fun a' ha => hf a' (List.mem_cons_of_mem _ ha)) fun _ => .ok _

theorem foldlM {f : β → α → Except ε β} (hf : ∀ b a, Raises P (f b a)) (l : List α) (b : β) :
    Raises P (l.foldlM f b) := by
  induction l generalizing b with
  | nil => exact .ok b
  | cons a l ih =>
    rw [List.foldlM_cons]
    exact .bind (hf b a) ih

theorem mono {P' : ε → Prop} {o : Except ε α} (ho : Raises P o) (h : ∀ e, P e → P' e) :
    Raises P' o := fun e he => h e (ho e he)

end Raises

/-! ## What every way out keeps, and which errors leave

`Confines r P p` is `Keeps r p`, with `P` of every error that leaves `p`. -/

/-- Every way out of `p` leaves a state related to the one before, and what is raised
satisfies `P`. -/
def Confines (r : σ → σ → Prop) (P : ε → Prop) (p : Program σ ε α) : Prop :=
  ∀ s, Triple p s (fun _ s' => r s s') fun e s' => r s s' ∧ P e

namespace Confines

variable {r : σ → σ → Prop} {P P' : ε → Prop}

theorem step {f : σ → α × σ} (h : ∀ s, r s (f s).2) :
    Confines r P (Program.step f : Program σ ε α) := fun s => .step (h s)

variable [Std.Refl r]

theorem pure (a : α) : Confines r P (Pure.pure a : Program σ ε α) := fun s => .pure (refl_of r s)

theorem throw {e : ε} (h : P e) : Confines r P (MonadExcept.throw e : Program σ ε α) :=
  fun s => .throw ⟨refl_of r s, h⟩

theorem ofExcept {o : Except ε α} (h : Raises P o) :
    Confines r P (Program.ofExcept o : Program σ ε α) :=
  fun s => .ofExcept (fun _ _ => refl_of r s) fun e he => ⟨refl_of r s, h e he⟩

omit [Std.Refl r]
variable [IsTrans σ r]

theorem bind {p : Program σ ε α} {f : α → Program σ ε β} (hp : Confines r P p)
    (hf : ∀ a, Confines r P (f a)) : Confines r P (p >>= f) := fun s =>
  (hp s).bind fun a s' h => (hf a s').mono (fun _ _ h' => trans_of r h h') fun _ _ h' =>
    ⟨trans_of r h h'.1, h'.2⟩

omit [IsTrans σ r] in
/-- What is captured is an outcome with such an error, if any. -/
theorem captured {p : Program σ ε α} (hp : Confines r P p) (s : σ) {R : ε → σ → Prop} :
    Triple (Program.capture p) s (fun o s' => r s s' ∧ Raises P o) R :=
  Triple.capture (Q := fun o s' => r s s' ∧ Raises P o)
    ((hp s).mono (fun a _ h => ⟨h, .ok a⟩) fun _ _ h => ⟨h.1, .error h.2⟩)

/-- What follows a captured program knows which errors it may have raised. -/
theorem capture_bind {p : Program σ ε α} {f : Except ε α → Program σ ε β} (hp : Confines r P p)
    (hf : ∀ o, Raises P o → Confines r P' (f o)) :
    Confines r P' (Program.capture p >>= f) := by
  intro s
  refine (hp.captured s).bind fun o s' h => ?_
  exact (hf o h.2 s').mono (fun _ _ h' => trans_of r h.1 h') fun _ _ h' =>
    ⟨trans_of r h.1 h'.1, h'.2⟩

/-- What is captured does not leave. -/
theorem captureEach [Std.Refl r] {f : α → Program σ ε β} (hf : ∀ a, Confines r P (f a))
    (l : List α) : Confines r P' (Program.captureEach f l) := by
  induction l with
  | nil => exact pure []
  | cons a l ih => exact capture_bind (hf a) fun _ _ => bind ih fun _ => pure _

end Confines

/-! Where only the errors matter, any two states are related. -/

instance : Std.Refl fun _ _ : σ => True := ⟨fun _ => trivial⟩

instance : IsTrans σ fun _ _ => True := ⟨fun _ _ _ _ _ => trivial⟩

end Program
