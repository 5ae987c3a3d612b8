import Mathlib.Logic.Relation
import Mathlib.Data.List.Basic

/-! Stateful computations that may stop early, and how their runs move the state. -/
namespace Effect

/-- Why a computation stopped before its end: an exception, which a caller can
catch, or an abort, which nothing catches. -/
inductive Stop (ε : Type) where
  | exception (what : ε)
  | abort (what : ε)
  deriving DecidableEq, Repr

/-- The state reached is kept when a computation stops early. -/
def Eff (σ ε α : Type) : Type := σ → Except (Stop ε) α × σ

namespace Eff

variable {σ τ ε α β : Type}

/-- Continue with the value of a finished computation; a stop skips the rest. -/
def andThen (k : α → Eff σ ε β) : Except (Stop ε) α × σ → Except (Stop ε) β × σ
  | (.ok a, s) => k a s
  | (.error e, s) => (.error e, s)

instance : Monad (Eff σ ε) where
  pure a := fun s => (.ok a, s)
  bind m k := fun s => andThen k (m s)

def get : Eff σ ε σ := fun s => (.ok s, s)

def modify (f : σ → σ) : Eff σ ε Unit := fun s => (.ok (), f s)

def throw (what : ε) : Eff σ ε α := fun s => (.error (.exception what), s)

def abort (what : ε) : Eff σ ε α := fun s => (.error (.abort what), s)

/-- Run the handler where the body threw an exception; an abort passes through. -/
def handleWith (handler : ε → Eff σ ε α) :
    Except (Stop ε) α × σ → Except (Stop ε) α × σ
  | (.error (.exception what), s) => handler what s
  | other => other

def tryCatch (m : Eff σ ε α) (handler : ε → Eff σ ε α) : Eff σ ε α :=
  fun s => handleWith handler (m s)

def ofExcept : Except ε α → Eff σ ε α
  | .ok a => fun s => (.ok a, s)
  | .error what => fun s => (.error (.exception what), s)

/-- Run a computation on one component of the state. -/
def onPart (part : σ → τ) (put : σ → τ → σ) (m : Eff τ ε α) : Eff σ ε α :=
  fun s => ((m (part s)).1, put s (m (part s)).2)

def forEach : List α → (α → Eff σ ε Unit) → Eff σ ε Unit
  | [], _ => pure ()
  | a :: as, f => do f a; forEach as f

@[simp] theorem pure_apply (a : α) (s : σ) : (pure a : Eff σ ε α) s = (.ok a, s) := rfl

@[simp] theorem bind_apply (m : Eff σ ε α) (k : α → Eff σ ε β) (s : σ) :
    (m >>= k) s = andThen k (m s) := rfl

@[simp] theorem andThen_ok (k : α → Eff σ ε β) (a : α) (s : σ) :
    andThen k (.ok a, s) = k a s := rfl

@[simp] theorem andThen_error (k : α → Eff σ ε β) (e : Stop ε) (s : σ) :
    andThen k (.error e, s) = (.error e, s) := rfl

@[simp] theorem get_apply (s : σ) : (get : Eff σ ε σ) s = (.ok s, s) := rfl

@[simp] theorem modify_apply (f : σ → σ) (s : σ) :
    (modify f : Eff σ ε Unit) s = (.ok (), f s) := rfl

@[simp] theorem throw_apply (what : ε) (s : σ) :
    (throw what : Eff σ ε α) s = (.error (.exception what), s) := rfl

@[simp] theorem abort_apply (what : ε) (s : σ) :
    (abort what : Eff σ ε α) s = (.error (.abort what), s) := rfl

@[simp] theorem tryCatch_apply (m : Eff σ ε α) (handler : ε → Eff σ ε α) (s : σ) :
    tryCatch m handler s = handleWith handler (m s) := rfl

@[simp] theorem handleWith_ok (handler : ε → Eff σ ε α) (a : α) (s : σ) :
    handleWith handler (.ok a, s) = (.ok a, s) := rfl

@[simp] theorem handleWith_exception (handler : ε → Eff σ ε α) (what : ε) (s : σ) :
    handleWith handler (.error (.exception what), s) = handler what s := rfl

@[simp] theorem handleWith_abort (handler : ε → Eff σ ε α) (what : ε) (s : σ) :
    handleWith handler (.error (.abort what), s) = (.error (.abort what), s) := rfl

@[simp] theorem ofExcept_ok (a : α) (s : σ) :
    (ofExcept (.ok a) : Eff σ ε α) s = (.ok a, s) := rfl

@[simp] theorem ofExcept_error (what : ε) (s : σ) :
    (ofExcept (.error what) : Eff σ ε α) s = (.error (.exception what), s) := rfl

@[simp] theorem onPart_apply (part : σ → τ) (put : σ → τ → σ) (m : Eff τ ε α) (s : σ) :
    onPart part put m s = ((m (part s)).1, put s (m (part s)).2) := rfl

@[simp] theorem forEach_nil (f : α → Eff σ ε Unit) (s : σ) : forEach [] f s = (.ok (), s) := rfl

@[simp] theorem forEach_cons (a : α) (as : List α) (f : α → Eff σ ε Unit) (s : σ) :
    forEach (a :: as) f s = andThen (fun _ => forEach as f) (f a s) := rfl

/-- A computation that finished passed through each of its parts. -/
theorem bind_ok {m : Eff σ ε α} {k : α → Eff σ ε β} {s s' : σ} {b : β} (ran : (m >>= k) s = (.ok b, s')) :
    ∃ a s₁, m s = (.ok a, s₁) ∧ k a s₁ = (.ok b, s') := by
  rw [bind_apply] at ran
  cases h : m s with
  | mk r s₁ =>
    rw [h] at ran
    cases r with
    | ok a => exact ⟨a, s₁, rfl, ran⟩
    | error e => cases ran

theorem andThen_assoc {γ : Type} (k : α → Eff σ ε β) (l : β → Eff σ ε γ)
    (r : Except (Stop ε) α × σ) :
    andThen l (andThen k r) = andThen (fun a => k a >>= l) r := by
  obtain ⟨r, s⟩ := r
  cases r <;> rfl

@[simp] theorem andThen_pure_state (f : α → β) (r : Except (Stop ε) α × σ) :
    (andThen (fun a => pure (f a)) r).2 = r.2 := by
  obtain ⟨r, s⟩ := r
  cases r <;> rfl

theorem andThen_pure_result (f : α → β) {r : Except (Stop ε) α × σ} {a : α} (finished : r.1 = .ok a) :
    (andThen (fun a => pure (f a)) r).1 = .ok (f a) := by
  obtain ⟨r, s⟩ := r
  cases finished
  rfl

/-! ### Runs as chains of steps

`Leads view R m s` says that what `view` shows of the state moves along `R` while `m` runs from
`s`, wherever `m` stops: a stuttering simulation of the run by the steps `R`. The rules below
follow the shape of the computation. -/

section

open Relation

variable {υ : Type} {view : σ → υ} {R : υ → υ → Prop}

def Leads (view : σ → υ) (R : υ → υ → Prop) (m : Eff σ ε α) (s : σ) : Prop :=
  ReflTransGen R (view s) (view (m s).2)

/-- `P` holds whenever the walk comes to one of its elements. -/
def AtEach (P : α → σ → Prop) (f : α → Eff σ ε Unit) : List α → σ → Prop
  | [], _ => True
  | a :: as, s => P a s ∧ ∀ s', f a s = (.ok (), s') → AtEach P f as s'

theorem Leads.quiet {m : Eff σ ε α} {s : σ} (same : view (m s).2 = view s) : Leads view R m s := by
  unfold Leads
  rw [same]

/-- Along no step at all, nothing moves. -/
theorem chain_unmoved {u v : υ} (chain : ReflTransGen (fun _ _ => False) u v) : v = u := by
  rcases chain.cases_tail with same | ⟨_, _, step⟩
  · exact same
  · exact step.elim

theorem Leads.unmoved {m : Eff σ ε α} {s : σ} (leads : Leads view (fun _ _ => False) m s) :
    view (m s).2 = view s := chain_unmoved leads

theorem Leads.unmoved_at {m : Eff σ ε α} {s t : σ} {r : Except (Stop ε) α}
    (leads : Leads view (fun _ _ => False) m s) (ran : m s = (r, t)) : view t = view s := by
  have same := leads.unmoved
  rwa [ran] at same

theorem Leads.single {m : Eff σ ε α} {s : σ} (step : R (view s) (view (m s).2)) :
    Leads view R m s := ReflTransGen.single step

theorem Leads.ite {c : Prop} [Decidable c] {m n : Eff σ ε α} {s : σ} (yes : c → Leads view R m s)
    (no : ¬ c → Leads view R n s) : Leads view R (if c then m else n) s := by
  split
  next h => exact yes h
  next h => exact no h

theorem Leads.bind {m : Eff σ ε α} {k : α → Eff σ ε β} {s : σ} (first : Leads view R m s)
    (rest : ∀ a s', m s = (.ok a, s') → Leads view R (k a) s') : Leads view R (m >>= k) s := by
  unfold Leads at *
  rw [bind_apply]
  cases h : m s with
  | mk r s' =>
    rw [h] at first
    cases r with
    | ok a => exact first.trans (rest a s' h)
    | error e => exact first

theorem Leads.tryCatch {m : Eff σ ε α} {handler : ε → Eff σ ε α} {s : σ} (body : Leads view R m s)
    (caught : ∀ what s', m s = (.error (.exception what), s') → Leads view R (handler what) s') :
    Leads view R (Eff.tryCatch m handler) s := by
  unfold Leads at *
  rw [tryCatch_apply]
  cases h : m s with
  | mk r s' =>
    rw [h] at body
    rcases r with (what | what) | a
    · exact body.trans (caught what s' h)
    · exact body
    · exact body

theorem Leads.forEach {P : α → σ → Prop} {f : α → Eff σ ε Unit} {as : List α} {s : σ}
    (each : ∀ a ∈ as, ∀ s, P a s → Leads view R (f a) s) (met : AtEach P f as s) :
    Leads view R (Eff.forEach as f) s := by
  induction as generalizing s with
  | nil => exact .refl
  | cons a as ih =>
    refine Leads.bind (k := fun _ => Eff.forEach as f) (each a (by simp) s met.1) ?_
    exact fun _ s' ran => ih (fun b member => each b (by simp [member])) (met.2 s' ran)

theorem AtEach.of_forall {P : α → σ → Prop} {f : α → Eff σ ε Unit} {as : List α} {s : σ}
    (always : ∀ a ∈ as, ∀ s, P a s) : AtEach P f as s := by
  induction as generalizing s with
  | nil => trivial
  | cons a as ih =>
    exact ⟨always a (by simp) s, fun s' _ => ih fun b member => always b (by simp [member])⟩

theorem Leads.mono {S : υ → υ → Prop} (weaker : ∀ u v, R u v → S u v) {m : Eff σ ε α} {s : σ}
    (leads : Leads view R m s) : Leads view S m s := ReflTransGen.mono weaker _ _ leads

/-- What every step preserves, the whole run preserves. -/
theorem chain_invariant (P : υ → Prop) (preserved : ∀ u v, R u v → P u → P v)
    {u v : υ} (chain : ReflTransGen R u v) (initial : P u) : P v := by
  induction chain with
  | refl => exact initial
  | tail _ step ih => exact preserved _ _ step ih

/-- A chain that starts within an invariant is a chain of steps from within it. -/
theorem chain_along (P : υ → Prop) (preserved : ∀ u v, R u v → P u → P v) {u v : υ}
    (chain : ReflTransGen R u v) (initial : P u) : ReflTransGen (fun u v => P u ∧ R u v) u v := by
  induction chain with
  | refl => exact .refl
  | tail earlier step ih => exact ih.tail ⟨chain_invariant P preserved earlier initial, step⟩

end

/-! ### Runs that stay within an invariant -/

section

variable {P : σ → Prop}

/-- From within `P` the computation does not abort, and wherever it stops it is within `P`. -/
def Within (P : σ → Prop) (m : Eff σ ε α) : Prop :=
  ∀ s, P s → (∀ what, (m s).1 ≠ .error (.abort what)) ∧ P (m s).2

theorem Within.pure (a : α) : Within P (Pure.pure a : Eff σ ε α) := by
  intro s within
  exact ⟨fun what stopped => (by cases stopped), within⟩

theorem Within.modify {f : σ → σ} (keeps : ∀ s, P s → P (f s)) : Within P (modify f : Eff σ ε Unit) := by
  intro s within
  exact ⟨fun what stopped => (by cases stopped), keeps s within⟩

theorem Within.bind {m : Eff σ ε α} {k : α → Eff σ ε β} (first : Within P m) (rest : ∀ a, Within P (k a)) :
    Within P (m >>= k) := by
  intro s within
  obtain ⟨lasts, between⟩ := first s within
  rw [bind_apply]
  cases h : m s with
  | mk r s' =>
    rw [h] at lasts between
    cases r with
    | ok a => exact rest a s' between
    | error e =>
      refine ⟨fun what stopped => lasts what ?_, between⟩
      cases stopped
      rfl

/-- What is read off the state is read within the invariant. -/
theorem Within.get_bind {k : σ → Eff σ ε β} (rest : ∀ s, P s → Within P (k s)) : Within P (get >>= k) := by
  intro s within
  exact rest s within s within

theorem Within.ite {c : Prop} [Decidable c] {m n : Eff σ ε α} (yes : c → Within P m) (no : ¬ c → Within P n) :
    Within P (if c then m else n) := by
  split
  next h => exact yes h
  next h => exact no h

theorem Within.tryCatch {m : Eff σ ε α} {handler : ε → Eff σ ε α} (body : Within P m)
    (caught : ∀ what, Within P (handler what)) : Within P (Eff.tryCatch m handler) := by
  intro s within
  obtain ⟨lasts, between⟩ := body s within
  rw [tryCatch_apply]
  cases h : m s with
  | mk r s' =>
    rw [h] at lasts between
    rcases r with (what | what) | a
    · exact caught what s' between
    · exact absurd rfl (lasts what)
    · exact ⟨fun what stopped => (by cases stopped), between⟩

end

/-! ### Runs that let no exception out -/

section

/-- The computation finishes or aborts. -/
def Contained (m : Eff σ ε α) : Prop := ∀ s what, (m s).1 ≠ .error (.exception what)

theorem Contained.pure (a : α) : Contained (Pure.pure a : Eff σ ε α) := by
  intro s what thrown
  cases thrown

theorem Contained.of_ok {m : Eff σ ε α} (runs : ∀ s, ∃ a, (m s).1 = .ok a) : Contained m := by
  intro s what thrown
  obtain ⟨a, ran⟩ := runs s
  rw [ran] at thrown
  cases thrown

theorem Contained.bind {m : Eff σ ε α} {k : α → Eff σ ε β} (first : Contained m) (rest : ∀ a, Contained (k a)) :
    Contained (m >>= k) := by
  intro s what thrown
  rw [bind_apply] at thrown
  cases ran : m s with
  | mk r s' =>
    rw [ran] at thrown
    cases r with
    | ok a => exact rest a s' what thrown
    | error e =>
      apply first s what
      rw [ran]
      cases thrown
      rfl

theorem Contained.ite {c : Prop} [Decidable c] {m n : Eff σ ε α} (yes : Contained m) (no : Contained n) :
    Contained (if c then m else n) := by
  split
  · exact yes
  · exact no

theorem Contained.tryCatch {m : Eff σ ε α} {handler : ε → Eff σ ε α} (caught : ∀ what, Contained (handler what)) :
    Contained (Eff.tryCatch m handler) := by
  intro s what thrown
  rw [tryCatch_apply] at thrown
  cases ran : m s with
  | mk r s' =>
    rw [ran] at thrown
    rcases r with (_ | _) | _
    · exact caught _ s' what thrown
    · cases thrown
    · cases thrown

theorem Contained.forEach {f : α → Eff σ ε Unit} (each : ∀ a, Contained (f a)) (as : List α) :
    Contained (Eff.forEach as f) := by
  induction as with
  | nil => exact Contained.pure ()
  | cons a as ih => exact Contained.bind (each a) fun _ => ih

end

/-! ### What a run comes to -/

section

variable {Q : α → σ → Prop} {E : Stop ε → σ → Prop}

/-- A run that finishes does so within `Q`, and one that stops early does so within `E`. -/
def Leaves (Q : α → σ → Prop) (E : Stop ε → σ → Prop) (m : Eff σ ε α) (s : σ) : Prop :=
  match m s with
  | (.ok a, t) => Q a t
  | (.error stop, t) => E stop t

theorem Leaves.of_run {m : Eff σ ε α} {s t : σ} {a : α} (ran : m s = (.ok a, t)) (done : Q a t) : Leaves Q E m s := by
  unfold Leaves
  rw [ran]
  exact done

theorem Leaves.abort {what : ε} {s : σ} (stopped : E (.abort what) s) : Leaves Q E (Eff.abort what : Eff σ ε α) s :=
    stopped

theorem Leaves.bind {m : Eff σ ε α} {k : α → Eff σ ε β} {Q : β → σ → Prop} {s : σ}
    (first : Leaves (fun a t => Leaves Q E (k a) t) E m s) : Leaves Q E (m >>= k) s := by
  unfold Leaves at first ⊢
  rw [bind_apply]
  cases ran : m s with
  | mk r t =>
    rw [ran] at first
    cases r with
    | ok a => exact first
    | error stop => exact first

theorem Leaves.mono {Q' : α → σ → Prop} {E' : Stop ε → σ → Prop} {m : Eff σ ε α} {s : σ} (leaves : Leaves Q E m s)
    (finished : ∀ a t, Q a t → Q' a t) (stopped : ∀ stop t, E stop t → E' stop t) : Leaves Q' E' m s := by
  unfold Leaves at leaves ⊢
  cases ran : m s with
  | mk r t =>
    rw [ran] at leaves
    cases r with
    | ok a => exact finished a t leaves
    | error stop => exact stopped stop t leaves

theorem Leaves.ite {c : Prop} [Decidable c] {m n : Eff σ ε α} {s : σ} (yes : c → Leaves Q E m s)
    (no : ¬ c → Leaves Q E n s) : Leaves Q E (if c then m else n) s := by
  split
  next h => exact yes h
  next h => exact no h

theorem Leaves.of_state {m : Eff σ ε α} {s : σ} (finished : ∀ a, Q a (m s).2) (stopped : ∀ stop, E stop (m s).2) :
    Leaves Q E m s := by
  unfold Leaves
  cases ran : m s with
  | mk r t =>
    rw [ran] at finished stopped
    cases r with
    | ok a => exact finished a
    | error stop => exact stopped stop

theorem Contained.leaves {m : Eff σ ε α} (contained : Contained m) {s : σ} (finished : ∀ a, Q a (m s).2)
    (aborted : ∀ what, E (.abort what) (m s).2) : Leaves Q E m s := by
  have quiet := contained s
  unfold Leaves
  cases ran : m s with
  | mk r t =>
    rw [ran] at finished aborted quiet
    rcases r with (what | what) | a
    · exact absurd rfl (quiet what)
    · exact aborted what
    · exact finished a

/-- A computation on a part of the state leaves the rest as it was. -/
theorem Leaves.onPart {part : σ → τ} {put : σ → τ → σ} {m : Eff τ ε α} {s : σ}
    (within : Leaves (fun a t => Q a (put s t)) (fun stop t => E stop (put s t)) m (part s)) :
    Leaves Q E (Eff.onPart part put m) s := by
  unfold Leaves at within ⊢
  rw [onPart_apply]
  cases ran : m (part s) with
  | mk r t =>
    rw [ran] at within
    cases r with
    | ok a => exact within
    | error stop => exact within

end

/-! ### Two runs side by side -/

section

variable {σ' : Type} {R : σ → σ' → Prop}

/-- From two states the computations give the same result, and leave states that are related. -/
def Alike (R : σ → σ' → Prop) (m : Eff σ ε α) (m' : Eff σ' ε α) (s : σ) (s' : σ') : Prop :=
  (m s).1 = (m' s').1 ∧ R (m s).2 (m' s').2

theorem Alike.pure (a : α) {s : σ} {s' : σ'} (related : R s s') :
    Alike R (Pure.pure a : Eff σ ε α) (Pure.pure a) s s' := ⟨rfl, related⟩

theorem Alike.modify {f : σ → σ} {f' : σ' → σ'} {s : σ} {s' : σ'} (related : R (f s) (f' s')) :
    Alike R (Eff.modify f : Eff σ ε Unit) (Eff.modify f') s s' := ⟨rfl, related⟩

theorem Alike.mono {S : σ → σ' → Prop} (weaker : ∀ t t', R t t' → S t t') {m : Eff σ ε α} {m' : Eff σ' ε α} {s : σ}
    {s' : σ'} (alike : Alike R m m' s s') : Alike S m m' s s' := ⟨alike.1, weaker _ _ alike.2⟩

theorem Alike.ofExcept (result : Except ε α) {s : σ} {s' : σ'} (related : R s s') :
    Alike R (Eff.ofExcept result : Eff σ ε α) (Eff.ofExcept result) s s' := by
  cases result with
  | ok a => exact ⟨rfl, related⟩
  | error what => exact ⟨rfl, related⟩

/-- Each side goes on with the state it reads. -/
theorem Alike.get_bind {k : σ → Eff σ ε β} {k' : σ' → Eff σ' ε β} {s : σ} {s' : σ'}
    (rest : Alike R (k s) (k' s') s s') : Alike R (get >>= k) (get >>= k') s s' := rest

theorem Alike.bind {m : Eff σ ε α} {m' : Eff σ' ε α} {k : α → Eff σ ε β} {k' : α → Eff σ' ε β} {s : σ} {s' : σ'}
    (first : Alike R m m' s s')
    (rest : ∀ a t t', m s = (.ok a, t) → m' s' = (.ok a, t') → R t t' → Alike R (k a) (k' a) t t') :
    Alike R (m >>= k) (m' >>= k') s s' := by
  obtain ⟨same, related⟩ := first
  unfold Alike
  rw [bind_apply, bind_apply]
  cases h : m s with
  | mk r t =>
    cases h' : m' s' with
    | mk r' t' =>
      rw [h, h'] at same related
      cases same
      cases r with
      | ok a => exact rest a t t' h h' related
      | error e => exact ⟨rfl, related⟩

/-- The two sides may go on with different values, where it is known what they are. -/
theorem Alike.after {m : Eff σ ε α} {m' : Eff σ' ε α} {k : α → Eff σ ε β} {k' : α → Eff σ' ε β} {s t : σ} {s' t' : σ'}
    {a a' : α} (ran : m s = (.ok a, t)) (ran' : m' s' = (.ok a', t')) (rest : Alike R (k a) (k' a') t t') :
    Alike R (m >>= k) (m' >>= k') s s' := by
  unfold Alike
  rw [bind_apply, bind_apply, ran, ran']
  exact rest

theorem Alike.ite {c c' : Prop} [Decidable c] [Decidable c'] {m n : Eff σ ε α} {m' n' : Eff σ' ε α} {s : σ} {s' : σ'}
    (same : c ↔ c') (yes : c → Alike R m m' s s') (no : ¬ c → Alike R n n' s s') :
    Alike R (if c then m else n) (if c' then m' else n') s s' := by
  by_cases h : c
  · rw [if_pos h, if_pos (same.mp h)]
    exact yes h
  · rw [if_neg h, if_neg fun h' => h (same.mpr h')]
    exact no h

theorem Alike.tryCatch {m : Eff σ ε α} {m' : Eff σ' ε α} {handler : ε → Eff σ ε α} {handler' : ε → Eff σ' ε α}
    {s : σ} {s' : σ'} (body : Alike R m m' s s')
    (caught : ∀ what t t', R t t' → Alike R (handler what) (handler' what) t t') :
    Alike R (Eff.tryCatch m handler) (Eff.tryCatch m' handler') s s' := by
  obtain ⟨same, related⟩ := body
  unfold Alike
  rw [tryCatch_apply, tryCatch_apply]
  cases h : m s with
  | mk r t =>
    cases h' : m' s' with
    | mk r' t' =>
      rw [h, h'] at same related
      cases same
      rcases r with (what | what) | a
      · exact caught what t t' related
      · exact ⟨rfl, related⟩
      · exact ⟨rfl, related⟩

end

end Eff

end Effect
