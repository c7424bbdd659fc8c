import InternumCore.Program

/-!
# Worker threads

A `Thread σ ε α` is the text of a function that is run in a thread of its own: it looks
at the state, changes it step by step, and ends with a result.  A program that waits for
it to its end sees it as one call (`awaited`).  A program that stops waiting for it goes
on at once, and so does the thread: `t.after n s` is what is left of `t` when it has made
`n` changes, and the state it has made of `s`.

`Triple t s n Q R` says of a whole run of `t` from `s` that it returns with `Q` after
exactly `n` changes, or raises with `R`.  So a longer thread is known at that moment
(`Triple.moment`).  `Always I t s` says that `I` holds at every moment.
-/

/-- The text of a thread. -/
inductive Thread (σ ε α : Type) where
  | ended (result : Except ε α)
  | look (rest : σ → Thread σ ε α)
  | change (f : σ → σ) (rest : Thread σ ε α)

namespace Thread

variable {σ ε α β : Type}

/-- Goes on with what is returned. -/
def bind : Thread σ ε α → (α → Thread σ ε β) → Thread σ ε β
  | ended (.ok a), f => f a
  | ended (.error e), _ => ended (.error e)
  | look rest, f => look fun s => (rest s).bind f
  | change g rest, f => change g (rest.bind f)

instance : Monad (Thread σ ε) where
  pure a := ended (.ok a)
  bind := bind

/-- Ends with an error. -/
def raise (e : ε) : Thread σ ε α := ended (.error e)

/-- Changes the state once. -/
def act (f : σ → σ) : Thread σ ε Unit := change f (ended (.ok ()))

/-- The outcome of a whole run and the state it leaves. -/
def run : Thread σ ε α → σ → Except ε α × σ
  | ended result, s => (result, s)
  | look rest, s => (rest s).run s
  | change f rest, s => rest.run (f s)

/-- How often a whole run changes the state. -/
def steps : Thread σ ε α → σ → ℕ
  | ended _, _ => 0
  | look rest, s => (rest s).steps s
  | change f rest, s => rest.steps (f s) + 1

/-- What is left of the thread after so many changes, and the state it has come to. -/
def after : Thread σ ε α → ℕ → σ → Thread σ ε α × σ
  | ended result, _, s => (ended result, s)
  | look rest, n, s => (rest s).after n s
  | change f rest, 0, s => (change f rest, s)
  | change f rest, n + 1, s => rest.after n (f s)

/-- The call of a program that waits for the thread. -/
def awaited (t : Thread σ ε α) : Program σ ε α := ExceptT.mk t.run

/-! ## Where a thread stands -/

@[simp] theorem after_zero (t : Thread σ ε α) (s : σ) : (t.after 0 s).2 = s := by
  induction t with
  | ended result => rfl
  | look rest ih => exact ih s
  | change f rest _ => rfl

/-- What is left goes on where it was left. -/
theorem after_add (t : Thread σ ε α) (n m : ℕ) (s : σ) :
    (t.after n s).1.after m (t.after n s).2 = t.after (n + m) s := by
  induction t generalizing n s with
  | ended result => rfl
  | look rest ih => exact ih s n s
  | change f rest ih =>
    cases n with
    | zero =>
      rw [Nat.zero_add]
      rfl
    | succ n =>
      rw [Nat.succ_add]
      exact ih n (f s)

/-- When it has made all its changes a thread has come to its end. -/
theorem after_of_steps_le {t : Thread σ ε α} {n : ℕ} {s : σ} (h : t.steps s ≤ n) :
    (t.after n s).2 = (t.run s).2 := by
  induction t generalizing n s with
  | ended result => rfl
  | look rest ih => exact ih s h
  | change f rest ih =>
    cases n with
    | zero => exact absurd h (Nat.not_succ_le_zero _)
    | succ n => exact ih (Nat.le_of_succ_le_succ h)

theorem run_bind (t : Thread σ ε α) (f : α → Thread σ ε β) (s : σ) :
    (t >>= f).run s = match t.run s with
      | (.ok a, s') => (f a).run s'
      | (.error e, s') => (.error e, s') := by
  induction t generalizing s with
  | ended result => cases result <;> rfl
  | look rest ih => exact ih s s
  | change g rest ih => exact ih (g s)

theorem steps_bind_ok {t : Thread σ ε α} {f : α → Thread σ ε β} {s s' : σ} {a : α}
    (h : t.run s = (.ok a, s')) : (t >>= f).steps s = t.steps s + (f a).steps s' := by
  induction t generalizing s with
  | ended result =>
    obtain ⟨rfl, rfl⟩ := Prod.mk.inj h
    exact (Nat.zero_add _).symm
  | look rest ih => exact ih s h
  | change g rest ih =>
    have hrest : (rest >>= f).steps (g s) = rest.steps (g s) + (f a).steps s' := ih h
    show (rest >>= f).steps (g s) + 1 = rest.steps (g s) + 1 + (f a).steps s'
    omega

theorem after_bind_ok {t : Thread σ ε α} {f : α → Thread σ ε β} {s s' : σ} {a : α}
    (h : t.run s = (.ok a, s')) (m : ℕ) :
    (t >>= f).after (t.steps s + m) s = (f a).after m s' := by
  induction t generalizing s with
  | ended result =>
    obtain ⟨rfl, rfl⟩ := Prod.mk.inj h
    show (f a).after (0 + m) s = _
    rw [Nat.zero_add]
  | look rest ih => exact ih s h
  | change g rest ih =>
    have hsteps : (change g rest).steps s + m = (rest.steps (g s) + m) + 1 := by
      show rest.steps (g s) + 1 + m = _
      omega
    rw [hsteps]
    exact ih h

/-! ## Whole runs -/

/-- The thread returns with `Q` after exactly `n` changes, or it raises with `R`. -/
def Triple (t : Thread σ ε α) (s : σ) (n : ℕ) (Q : α → σ → Prop) (R : ε → σ → Prop) : Prop :=
  match t.run s with
  | (.ok a, s') => t.steps s = n ∧ Q a s'
  | (.error e, s') => R e s'

namespace Triple

variable {t : Thread σ ε α} {s : σ} {n m : ℕ} {Q : α → σ → Prop} {R : ε → σ → Prop}

theorem pure {a : α} (h : Q a s) : Triple (Pure.pure a : Thread σ ε α) s 0 Q R := ⟨rfl, h⟩

theorem raise {e : ε} (h : R e s) : Triple (Thread.raise e) s n Q R := h

theorem look {rest : σ → Thread σ ε α} (h : (rest s).Triple s n Q R) :
    (Thread.look rest).Triple s n Q R := h

theorem of_ok (h : t.Triple s n Q R) {a : α} {s' : σ} (hrun : t.run s = (.ok a, s')) : Q a s' := by
  rw [Triple, hrun] at h
  exact h.2

theorem of_error (h : t.Triple s n Q R) {e : ε} {s' : σ} (hrun : t.run s = (.error e, s')) :
    R e s' := by
  rwa [Triple, hrun] at h

theorem mono {Q' : α → σ → Prop} {R' : ε → σ → Prop} (h : t.Triple s n Q' R')
    (hQ : ∀ a s', Q' a s' → Q a s') (hR : ∀ e s', R' e s' → R e s') : t.Triple s n Q R := by
  unfold Triple at h ⊢
  rcases hrun : t.run s with ⟨e | a, s'⟩ <;> rw [hrun] at h
  · exact hR e s' h
  · exact ⟨h.1, hQ a s' h.2⟩

theorem bind {f : α → Thread σ ε β} {Q : β → σ → Prop} {M : α → σ → Prop}
    (ht : t.Triple s n M R) (hf : ∀ a s', M a s' → (f a).Triple s' m Q R) :
    (t >>= f).Triple s (n + m) Q R := by
  unfold Triple at ht ⊢
  rw [run_bind]
  rcases hrun : t.run s with ⟨e | a, s'⟩ <;> rw [hrun] at ht
  · exact ht
  · obtain ⟨hsteps, ha⟩ := ht
    have hrest := hf a s' ha
    unfold Triple at hrest
    dsimp only
    rw [steps_bind_ok hrun, hsteps]
    rcases hrun' : (f a).run s' with ⟨e | b, s''⟩ <;> rw [hrun'] at hrest
    · exact hrest
    · exact ⟨by rw [hrest.1], hrest.2⟩

theorem act {f : σ → σ} {Q : Unit → σ → Prop} (h : Q () (f s)) :
    (Thread.act f : Thread σ ε Unit).Triple s 1 Q R := ⟨rfl, h⟩

theorem ofExcept {r : Except ε α} (hQ : ∀ a, r = .ok a → Q a s)
    (hR : ∀ e, r = .error e → R e s) : (ended r).Triple s 0 Q R := by
  cases r with
  | ok a => exact ⟨rfl, hQ a rfl⟩
  | error e => exact hR e rfl

/-- A program that waits for the thread sees how it ends. -/
theorem awaited (h : t.Triple s n Q R) : Program.Triple t.awaited s Q R := by
  unfold Triple at h
  unfold Program.Triple
  change match t.run s with
    | (.ok a, s') => Q a s'
    | (.error e, s') => R e s'
  rcases hrun : t.run s with ⟨e | a, s'⟩ <;> rw [hrun] at h
  · exact h
  · exact h.2

/-- Where the first part of a thread cannot raise, the second part starts when the first
is through. -/
theorem moment {f : α → Thread σ ε β} {I : σ → Prop} (h : t.Triple s n Q R)
    (hR : ∀ e s', ¬R e s') (hf : ∀ a s', Q a s' → I ((f a).after m s').2) :
    I ((t >>= f).after (n + m) s).2 := by
  unfold Triple at h
  rcases hrun : t.run s with ⟨e | a, s'⟩ <;> rw [hrun] at h
  · exact absurd h (hR e s')
  · obtain ⟨rfl, ha⟩ := h
    rw [after_bind_ok hrun]
    exact hf a s' ha

end Triple

/-! ## Every moment -/

/-- `I` holds at every moment of a run. -/
def Always (I : σ → Prop) : Thread σ ε α → σ → Prop
  | ended _, s => I s
  | look rest, s => (rest s).Always I s
  | change f rest, s => I s ∧ rest.Always I (f s)

namespace Always

variable {I : σ → Prop} {t : Thread σ ε α} {s : σ}

theorem after (h : t.Always I s) (n : ℕ) : I (t.after n s).2 := by
  induction t generalizing n s with
  | ended result => exact h
  | look rest ih => exact ih s h n
  | change f rest ih =>
    cases n with
    | zero => exact h.1
    | succ n => exact ih h.2 n

theorem look {rest : σ → Thread σ ε α} (h : (rest s).Always I s) :
    (Thread.look rest).Always I s := h

theorem bind_ok {f : α → Thread σ ε β} (ht : t.Always I s)
    (hf : ∀ a s', t.run s = (.ok a, s') → (f a).Always I s') : (t >>= f).Always I s := by
  induction t generalizing s with
  | ended result =>
    cases result with
    | ok a => exact hf a s rfl
    | error e => exact ht
  | look rest ih => exact ih s ht hf
  | change g rest ih => exact ⟨ht.1, ih ht.2 hf⟩

theorem act {f : σ → σ} (hs : I s) (hf : I (f s)) : (Thread.act f : Thread σ ε Unit).Always I s :=
  ⟨hs, hf⟩

theorem run (h : t.Always I s) : I (t.run s).2 := by
  rw [← after_of_steps_le (Nat.le_refl (t.steps s))]
  exact h.after _

end Always

/-! ## What is raised -/

/-- What the thread raises, if it does, satisfies `P`, whatever it sees. -/
def Raises (P : ε → Prop) : Thread σ ε α → Prop
  | ended result => Program.Raises P result
  | look rest => ∀ s, (rest s).Raises P
  | change _ rest => rest.Raises P

namespace Raises

variable {P : ε → Prop} {t : Thread σ ε α}

theorem pure (a : α) : (Pure.pure a : Thread σ ε α).Raises P := .ok a

theorem raise {e : ε} (h : P e) : (Thread.raise e : Thread σ ε α).Raises P := .error h

theorem act (f : σ → σ) : (Thread.act f : Thread σ ε Unit).Raises P := .ok ()

theorem bind {f : α → Thread σ ε β} (ht : t.Raises P) (hf : ∀ a, (f a).Raises P) :
    (t >>= f).Raises P := by
  induction t with
  | ended result =>
    cases result with
    | ok a => exact hf a
    | error e => exact .error (ht e rfl)
  | look rest ih => exact fun s => ih s (ht s)
  | change g rest ih => exact ih ht

theorem run (h : t.Raises P) (s : σ) : Program.Raises P (t.run s).1 := by
  induction t generalizing s with
  | ended result => exact h
  | look rest ih => exact ih s (h s) s
  | change f rest ih => exact ih h (f s)

end Raises
end Thread
