import Mathlib.Data.Nat.Notation
import Mathlib.Logic.Basic

/-!
# Computations that ask whether to go on

A computation asks its caller, now and then, whether it has been interrupted, and ends in a result.
The caller answers each question with `none`, go on, or with the reason to stop.  As a tree the
computation branches at every question, so that nothing is assumed about the answers.

* `run`, `quiet` : the result under given answers, and where every answer is `none`;
* `Obeys`, `ObeysInto` : after an interruption only an error that reports one can result, or a
  value that what follows refuses;
* `Obeys.run_eq_ok`, `Obeys.run_cases` : such a computation gives its quiet result or an
  interruption, whatever the answers are;
* `Gives` : some answers lead to a value; what a sequence gives, its parts give;
* `Prompt` : the same as `Obeys` for interruptions that last, which leave a computation room to go
  on until it asks once more; `Prompt.run` : one that is in effect when a question is asked decides
  the result.
-/

namespace MadoPilot.Lib

universe u

inductive Guarded (ι ε α : Type u) where
  | done (result : Except ε α)
  | ask (next : Option ι → Guarded ι ε α)

namespace Guarded

variable {ι ε α β : Type u}

protected def bind : Guarded ι ε α → (α → Guarded ι ε β) → Guarded ι ε β
  | done (.ok a), f => f a
  | done (.error e), _ => done (.error e)
  | ask next, f => ask fun answer => (next answer).bind f

instance : Monad (Guarded ι ε) where
  pure a := done (.ok a)
  bind := Guarded.bind

def fail (e : ε) : Guarded ι ε α := done (.error e)

def lift (r : Except ε α) : Guarded ι ε α := done r

/-- A question, with the error that an interruption is reported by. -/
def check (error : ι → ε) : Guarded ι ε PUnit :=
  ask fun
    | some i => done (.error (error i))
    | none => done (.ok ⟨⟩)

def run : Guarded ι ε α → (ℕ → Option ι) → Except ε α
  | done r, _ => r
  | ask next, answers => (next (answers 0)).run fun n => answers (n + 1)

def quiet : Guarded ι ε α → Except ε α
  | done r => r
  | ask next => (next none).quiet

def caught : Guarded ι ε α → Guarded ι ε (Except ε α)
  | done r => done (.ok r)
  | ask next => ask fun answer => (next answer).caught

def asks : Guarded ι ε α → ℕ
  | done _ => 0
  | ask next => (next none).asks + 1

/-- No answer to a question of the computation is an interruption. -/
def Uninterrupted (p : Guarded ι ε α) (answers : ℕ → Option ι) : Prop :=
  ∀ n, n < p.asks → answers n = none

/-! ### Quiet runs -/

@[simp] theorem quiet_pure (a : α) : (pure a : Guarded ι ε α).quiet = .ok a := rfl

@[simp] theorem quiet_fail (e : ε) : (fail e : Guarded ι ε α).quiet = .error e := rfl

@[simp] theorem quiet_lift (r : Except ε α) : (lift r : Guarded ι ε α).quiet = r := rfl

@[simp] theorem quiet_check (error : ι → ε) : (check error).quiet = .ok ⟨⟩ := rfl

@[simp] theorem quiet_bind (p : Guarded ι ε α) (f : α → Guarded ι ε β) :
    (p >>= f).quiet = p.quiet >>= fun a => (f a).quiet := by
  induction p with
  | done r => cases r <;> rfl
  | ask next ih => exact ih none

theorem quiet_bind_eq_ok {p : Guarded ι ε α} {f : α → Guarded ι ε β} {b : β}
    (h : (p >>= f).quiet = .ok b) : ∃ a, p.quiet = .ok a ∧ (f a).quiet = .ok b := by
  rw [quiet_bind] at h
  cases hp : p.quiet with
  | error e =>
    rw [hp] at h
    cases h
  | ok a =>
    rw [hp] at h
    exact ⟨a, rfl, h⟩

theorem quiet_bind_ok {p : Guarded ι ε α} {a : α} (h : p.quiet = .ok a) (f : α → Guarded ι ε β) :
    (p >>= f).quiet = (f a).quiet := by
  rw [quiet_bind, h]
  rfl

theorem quiet_caught (p : Guarded ι ε α) : p.caught.quiet = .ok p.quiet := by
  induction p with
  | done r => rfl
  | ask next ih => exact ih none

@[simp] theorem bind_check_quiet (error : ι → ε) (f : PUnit → Guarded ι ε β) :
    (check error >>= f).quiet = (f ⟨⟩).quiet := rfl

@[simp] theorem asks_check_bind (error : ι → ε) (f : PUnit → Guarded ι ε β) :
    (check error >>= f).asks = (f ⟨⟩).asks + 1 := rfl

theorem bind_assoc {γ : Type u} (p : Guarded ι ε α) (f : α → Guarded ι ε β) (g : β → Guarded ι ε γ) :
    (p >>= f >>= g) = p >>= fun a => f a >>= g := by
  induction p with
  | done r => cases r <;> rfl
  | ask next ih => exact congrArg ask (funext ih)

/-! ### Interruptions -/

inductive Refused (reports : ε → Prop) : Guarded ι ε α → Prop
  | done {e : ε} : reports e → Refused reports (done (.error e))
  | ask {next : Option ι → Guarded ι ε α} : (∀ answer, Refused reports (next answer)) →
      Refused reports (ask next)

/-- After an interruption nothing but an error that reports one results. -/
inductive Obeys (reports : ε → Prop) : Guarded ι ε α → Prop
  | done (r : Except ε α) : Obeys reports (done r)
  | ask {next : Option ι → Guarded ι ε α} : (∀ i, Refused reports (next (some i))) →
      Obeys reports (next none) → Obeys reports (ask next)

/-- Every result is an error that reports an interruption or a value of `P`. -/
inductive Ends (reports : ε → Prop) (P : α → Prop) : Guarded ι ε α → Prop
  | error {e : ε} : reports e → Ends reports P (done (.error e))
  | ok {a : α} : P a → Ends reports P (done (.ok a))
  | ask {next : Option ι → Guarded ι ε α} : (∀ answer, Ends reports P (next answer)) →
      Ends reports P (ask next)

/-- After an interruption every result is an error that reports one or a value of `P`. -/
inductive ObeysInto (reports : ε → Prop) (P : α → Prop) : Guarded ι ε α → Prop
  | done (r : Except ε α) : ObeysInto reports P (done r)
  | ask {next : Option ι → Guarded ι ε α} : (∀ i, Ends reports P (next (some i))) →
      ObeysInto reports P (next none) → ObeysInto reports P (ask next)

variable {reports : ε → Prop} {p : Guarded ι ε α} {f : α → Guarded ι ε β}
  {answers : ℕ → Option ι}

theorem Refused.bind (h : Refused reports p) : Refused reports (p >>= f) := by
  induction h with
  | done he => exact .done he
  | ask _ ih => exact .ask ih

theorem Refused.run (h : Refused reports p) : ∃ e, p.run answers = .error e ∧ reports e := by
  induction h generalizing answers with
  | done he => exact ⟨_, rfl, he⟩
  | ask _ ih => exact ih (answers 0)

theorem Obeys.pure (a : α) : Obeys reports (pure a : Guarded ι ε α) := .done _

theorem Obeys.fail (e : ε) : Obeys reports (fail e : Guarded ι ε α) := .done _

theorem Obeys.lift (r : Except ε α) : Obeys reports (lift r : Guarded ι ε α) := .done _

theorem Obeys.check {error : ι → ε} (h : ∀ i, reports (error i)) : Obeys reports (check error) :=
  .ask (fun i => .done (h i)) (.done _)

theorem Obeys.bind (h : Obeys reports p) (hf : ∀ a, Obeys reports (f a)) :
    Obeys reports (p >>= f) := by
  induction h with
  | done r =>
    cases r with
    | error e => exact .done _
    | ok a => exact hf a
  | ask hi _ ih => exact .ask (fun i => (hi i).bind) ih

theorem Obeys.ite {c : Prop} [Decidable c] {q : Guarded ι ε α} (hp : Obeys reports p)
    (hq : Obeys reports q) : Obeys reports (if c then p else q) := by
  split
  · exact hp
  · exact hq

theorem Obeys.foldlM {γ : Type u} {step : β → γ → Guarded ι ε β}
    (h : ∀ b c, Obeys reports (step b c)) (l : List γ) (b : β) :
    Obeys reports (l.foldlM step b) := by
  induction l generalizing b with
  | nil => exact .pure b
  | cons c l ih =>
    rw [List.foldlM_cons]
    exact (h b c).bind ih

theorem Refused.ends (h : Refused reports p) {P : α → Prop} : Ends reports P p := by
  induction h with
  | done he => exact .error he
  | ask _ ih => exact .ask ih

theorem Ends.bind {P : α → Prop} (h : Ends reports P p) {Q : β → Prop}
    (hf : ∀ a, P a → Ends reports Q (f a)) : Ends reports Q (p >>= f) := by
  induction h with
  | error he => exact .error he
  | ok ha => exact hf _ ha
  | ask _ ih => exact .ask ih

theorem Ends.refused {P : α → Prop} (h : Ends reports P p) (hf : ∀ a, P a → Refused reports (f a)) :
    Refused reports (p >>= f) := by
  induction h with
  | error he => exact .done he
  | ok ha => exact hf _ ha
  | ask _ ih => exact .ask ih

theorem ObeysInto.bind {P : α → Prop} (h : ObeysInto reports P p) {Q : β → Prop}
    (hf : ∀ a, ObeysInto reports Q (f a)) (hP : ∀ a, P a → Ends reports Q (f a)) :
    ObeysInto reports Q (p >>= f) := by
  induction h with
  | done r =>
    cases r with
    | error e => exact .done _
    | ok a => exact hf a
  | ask hi _ ih => exact .ask (fun i => (hi i).bind hP) ih

theorem Obeys.bind_into (h : Obeys reports p) {Q : β → Prop}
    (hf : ∀ a, ObeysInto reports Q (f a)) : ObeysInto reports Q (p >>= f) := by
  induction h with
  | done r =>
    cases r with
    | error e => exact .done _
    | ok a => exact hf a
  | ask hi _ ih => exact .ask (fun i => (hi i).bind.ends) ih

theorem ObeysInto.obeys {P : α → Prop} (h : ObeysInto reports P p) (hf : ∀ a, Obeys reports (f a))
    (hP : ∀ a, P a → Refused reports (f a)) : Obeys reports (p >>= f) := by
  induction h with
  | done r =>
    cases r with
    | error e => exact .done _
    | ok a => exact hf a
  | ask hi _ ih => exact .ask (fun i => (hi i).refused hP) ih

theorem Refused.caught (h : Refused reports p) {reports' : ε → Prop} :
    Ends reports' (fun r => ∃ e, r = .error e) p.caught := by
  induction h with
  | done he => exact .ok ⟨_, rfl⟩
  | ask _ ih => exact .ask ih

theorem Obeys.caught (h : Obeys reports p) {reports' : ε → Prop} :
    ObeysInto reports' (fun r => ∃ e, r = .error e) p.caught := by
  induction h with
  | done r => exact .done _
  | ask hi _ ih => exact .ask (fun i => (hi i).caught) ih

theorem run_eq_quiet (h : ∀ n, n < p.asks → answers n = none) : p.run answers = p.quiet := by
  induction p generalizing answers with
  | done r => rfl
  | ask next ih =>
    have hzero : answers 0 = none := h 0 (Nat.succ_pos _)
    show (next (answers 0)).run _ = _
    rw [hzero]
    exact ih none fun n hn => h (n + 1) (Nat.succ_lt_succ hn)

theorem Obeys.run_interrupted (h : Obeys reports p) {n : ℕ} (hn : n < p.asks)
    (hi : answers n ≠ none) : ∃ e, p.run answers = .error e ∧ reports e := by
  induction h generalizing answers n with
  | done r => exact absurd hn (Nat.not_lt_zero n)
  | @ask next hnext _ ih =>
    show ∃ e, (next (answers 0)).run (fun n => answers (n + 1)) = .error e ∧ reports e
    cases hzero : answers 0 with
    | some i => exact (hnext i).run
    | none =>
      cases n with
      | zero => exact absurd hzero hi
      | succ n => exact ih (Nat.lt_of_succ_lt_succ hn) hi

theorem Obeys.run_cases (h : Obeys reports p) (answers : ℕ → Option ι) :
    (∀ n, n < p.asks → answers n = none) ∧ p.run answers = p.quiet ∨
      (∃ n, n < p.asks ∧ answers n ≠ none) ∧ ∃ e, p.run answers = .error e ∧ reports e := by
  by_cases hquiet : ∀ n, n < p.asks → answers n = none
  · exact Or.inl ⟨hquiet, run_eq_quiet hquiet⟩
  · simp only [not_forall] at hquiet
    obtain ⟨n, hn, hi⟩ := hquiet
    exact Or.inr ⟨⟨n, hn, hi⟩, h.run_interrupted hn hi⟩

theorem Obeys.run_eq_ok (h : Obeys reports p) {a : α} :
    p.run answers = .ok a ↔ (∀ n, n < p.asks → answers n = none) ∧ p.quiet = .ok a := by
  constructor
  · intro hrun
    rcases h.run_cases answers with ⟨hquiet, heq⟩ | ⟨-, e, he, -⟩
    · exact ⟨hquiet, heq.symm.trans hrun⟩
    · rw [he] at hrun
      cases hrun
  · rintro ⟨hquiet, heq⟩
    exact (run_eq_quiet hquiet).trans heq

/-! ### Values -/

def Gives (p : Guarded ι ε α) (a : α) : Prop := ∃ answers, p.run answers = .ok a

theorem Obeys.gives (h : Obeys reports p) {a : α} (hp : p.Gives a) : p.quiet = .ok a := by
  obtain ⟨answers, hrun⟩ := hp
  exact (h.run_eq_ok.mp hrun).2

theorem gives_quiet {a : α} (h : p.quiet = .ok a) : p.Gives a :=
  ⟨fun _ => none, (run_eq_quiet fun _ _ => rfl).trans h⟩

theorem gives_lift {r : Except ε α} {a : α} (h : (lift r : Guarded ι ε α).Gives a) : r = .ok a := by
  obtain ⟨answers, hrun⟩ := h
  exact hrun

theorem gives_pure {a b : α} (h : (pure a : Guarded ι ε α).Gives b) : b = a := by
  obtain ⟨answers, hrun⟩ := h
  exact (Except.ok.inj hrun).symm

theorem not_gives_fail {e : ε} {a : α} : ¬ (fail e : Guarded ι ε α).Gives a := by
  rintro ⟨answers, hrun⟩
  cases hrun

theorem gives_bind {b : β} (h : (p >>= f).Gives b) : ∃ a, p.Gives a ∧ (f a).Gives b := by
  obtain ⟨answers, hrun⟩ := h
  induction p generalizing answers with
  | done r =>
    cases r with
    | error e => cases hrun
    | ok a => exact ⟨a, ⟨answers, rfl⟩, ⟨answers, hrun⟩⟩
  | ask next ih =>
    obtain ⟨a, ⟨answers', ha⟩, hb⟩ := ih (answers 0) _ hrun
    refine ⟨a, ⟨fun n => n.casesOn (answers 0) answers', ?_⟩, hb⟩
    exact ha

theorem gives_caught {r : Except ε α} (h : p.caught.Gives r) {a : α} (hr : r = .ok a) : p.Gives a := by
  obtain ⟨answers, hrun⟩ := h
  refine ⟨answers, ?_⟩
  induction p generalizing answers with
  | done r' =>
    obtain rfl := Except.ok.inj hrun
    exact hr
  | ask next ih => exact ih (answers 0) _ hrun

/-! ### Interruptions that last -/

def Lasts (answers : ℕ → Option ι) : Prop := ∀ k m, k ≤ m → answers k ≠ none → answers m ≠ none

def asked : Guarded ι ε α → (ℕ → Option ι) → ℕ
  | done _, _ => 0
  | ask next, answers => (next (answers 0)).asked (fun n => answers (n + 1)) + 1

/-- Where every answer is an interruption, an error that reports one results. -/
inductive Held (reports : ε → Prop) : Guarded ι ε α → Prop
  | done {e : ε} : reports e → Held reports (done (.error e))
  | ask {next : Option ι → Guarded ι ε α} : (∀ i, Held reports (next (some i))) →
      Held reports (ask next)

/-- After an interruption that lasts, an error that reports one results. -/
inductive Prompt (reports : ε → Prop) : Guarded ι ε α → Prop
  | done (r : Except ε α) : Prompt reports (done r)
  | ask {next : Option ι → Guarded ι ε α} : (∀ i, Held reports (next (some i))) →
      Prompt reports (next none) → Prompt reports (ask next)

/-- Every result is a value. -/
inductive Total : Guarded ι ε α → Prop
  | done (a : α) : Total (done (.ok a))
  | ask {next : Option ι → Guarded ι ε α} : (∀ answer, Total (next answer)) → Total (ask next)

theorem Lasts.shift (h : Lasts answers) : Lasts fun n => answers (n + 1) :=
  fun k m hkm => h (k + 1) (m + 1) (Nat.succ_le_succ hkm)

theorem Lasts.all (h : Lasts answers) (hzero : answers 0 ≠ none) (n : ℕ) : answers n ≠ none :=
  h 0 n (Nat.zero_le n) hzero

theorem Total.bind (h : Total p) (hf : ∀ a, Total (f a)) : Total (p >>= f) := by
  induction h with
  | done a => exact hf a
  | ask _ ih => exact .ask ih

theorem Total.caught (p : Guarded ι ε α) : Total p.caught := by
  induction p with
  | done r => exact .done r
  | ask next ih => exact .ask ih

theorem Refused.held (h : Refused reports p) : Held reports p := by
  induction h with
  | done he => exact .done he
  | ask _ ih => exact .ask fun i => ih (some i)

theorem Obeys.prompt (h : Obeys reports p) : Prompt reports p := by
  induction h with
  | done r => exact .done r
  | ask hi _ ih => exact .ask (fun i => (hi i).held) ih

theorem Total.held (h : Total p) (hf : ∀ a, Held reports (f a)) : Held reports (p >>= f) := by
  induction h with
  | done a => exact hf a
  | ask _ ih => exact .ask fun i => ih (some i)

theorem Total.prompt (h : Total p) (hheld : ∀ a, Held reports (f a))
    (hprompt : ∀ a, Prompt reports (f a)) : Prompt reports (p >>= f) := by
  induction h with
  | done a => exact hprompt a
  | ask hnext ih => exact .ask (fun i => (hnext (some i)).held hheld) (ih none)

theorem Obeys.then_prompt (h : Obeys reports p) (hf : ∀ a, Prompt reports (f a)) :
    Prompt reports (p >>= f) := by
  induction h with
  | done r =>
    cases r with
    | error e => exact .done _
    | ok a => exact hf a
  | ask hi _ ih => exact .ask (fun i => (hi i).bind.held) ih

theorem Held.run (h : Held reports p) (hall : ∀ n, answers n ≠ none) :
    ∃ e, p.run answers = .error e ∧ reports e := by
  induction h generalizing answers with
  | done he => exact ⟨_, rfl, he⟩
  | @ask next _ ih =>
    show ∃ e, (next (answers 0)).run (fun n => answers (n + 1)) = .error e ∧ reports e
    obtain ⟨i, hi⟩ := Option.ne_none_iff_exists'.mp (hall 0)
    rw [hi]
    exact ih i fun n => hall (n + 1)

theorem Prompt.run (h : Prompt reports p) (hlasts : Lasts answers) {n : ℕ} (hn : n < p.asked answers)
    (hi : answers n ≠ none) : ∃ e, p.run answers = .error e ∧ reports e := by
  induction h generalizing answers n with
  | done r => exact absurd hn (Nat.not_lt_zero n)
  | @ask next hheld _ ih =>
    show ∃ e, (next (answers 0)).run (fun n => answers (n + 1)) = .error e ∧ reports e
    cases hzero : answers 0 with
    | some i =>
      have hsome : answers 0 ≠ none := by
        rw [hzero]
        exact Option.some_ne_none i
      exact (hheld i).run fun n => hlasts.all hsome (n + 1)
    | none =>
      cases n with
      | zero => exact absurd hzero hi
      | succ n =>
        unfold asked at hn
        rw [hzero] at hn
        exact ih hlasts.shift (Nat.lt_of_succ_lt_succ hn) hi

theorem held_after (hheld : ∀ a, Held reports (f a)) (hall : ∀ n, answers n ≠ none) :
    ∃ e, (p >>= f).run answers = .error e ∧ (reports e ∨ p.run answers = .error e) := by
  induction p generalizing answers with
  | done r =>
    cases r with
    | error e => exact ⟨e, rfl, Or.inr rfl⟩
    | ok a =>
      obtain ⟨e, he, hreports⟩ := (hheld a).run hall
      exact ⟨e, he, Or.inl hreports⟩
  | ask next ih => exact ih (answers 0) fun n => hall (n + 1)

/-- **The same for what follows another computation**, which may fail in a way of its own. -/
theorem run_after (hheld : ∀ a, Held reports (f a)) (hprompt : ∀ a, Prompt reports (f a))
    (hlasts : Lasts answers) {n : ℕ} (hn : n < (p >>= f).asked answers) (hi : answers n ≠ none) :
    ∃ e, (p >>= f).run answers = .error e ∧ (reports e ∨ p.run answers = .error e) := by
  induction p generalizing answers n with
  | done r =>
    cases r with
    | error e => exact ⟨e, rfl, Or.inr rfl⟩
    | ok a =>
      obtain ⟨e, he, hreports⟩ := (hprompt a).run hlasts hn hi
      exact ⟨e, he, Or.inl hreports⟩
  | ask next ih =>
    cases n with
    | zero => exact held_after hheld (hlasts.all hi)
    | succ n => exact ih (answers 0) hlasts.shift (Nat.lt_of_succ_lt_succ hn) hi

end Guarded

end MadoPilot.Lib
