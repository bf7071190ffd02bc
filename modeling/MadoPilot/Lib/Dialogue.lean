import Mathlib.Logic.Basic

/-!
# Computations that call others

A computation puts questions to a host, each with answers of its own type, and ends in a result.  As
a tree it branches at every answer, so nothing is assumed about the host; a host that keeps a state
leads along one path of the tree, and its log says what was asked, what came back and the state that
each answer left.

* `result`, `log` : what becomes of a computation under a host;
* `Spoken` : the paths of the tree, whatever the host is; `spoken` : a log is one of them;
* `Meets` : a postcondition holds on every path, with a rule for each construct;
* `Watchful` : every question is followed at once by one that may stop the computation, and nothing
  goes on after that one stops it; `Watchful.wins` : a stop that is due when a question has been
  answered decides the result.
-/

namespace MadoPilot.Lib

/-- A computation that asks as it goes. -/
inductive Dialogue {Q : Type} (A : Q → Type) (ε α : Type) where
  | done (result : Except ε α)
  | call (q : Q) (next : A q → Dialogue A ε α)

/-- One that answers every question, from a state that each answer may move. -/
abbrev Host {Q : Type} (A : Q → Type) (E : Type) := (q : Q) → E → A q × E

structure Entry {Q : Type} (A : Q → Type) (E : Type) where
  question : Q
  answer : A question
  left : E

def Entry.said {Q : Type} {A : Q → Type} {E : Type} (entry : Entry A E) : (q : Q) × A q :=
  ⟨entry.question, entry.answer⟩

namespace Dialogue

variable {Q : Type} {A : Q → Type} {ε α β E : Type}

protected def bind : Dialogue A ε α → (α → Dialogue A ε β) → Dialogue A ε β
  | done (.ok a), f => f a
  | done (.error e), _ => done (.error e)
  | call q next, f => call q fun answer => (next answer).bind f

instance : Monad (Dialogue A ε) where
  pure a := done (.ok a)
  bind := Dialogue.bind

def ask (q : Q) : Dialogue A ε (A q) := call q fun answer => done (.ok answer)

def fail (e : ε) : Dialogue A ε α := done (.error e)

def lift (r : Except ε α) : Dialogue A ε α := done r

def attempt : Dialogue A ε α → Dialogue A ε (Except ε α)
  | done r => done (.ok r)
  | call q next => call q fun answer => (next answer).attempt

def result (host : Host A E) : Dialogue A ε α → E → Except ε α
  | done r, _ => r
  | call q next, e => (next (host q e).1).result host (host q e).2

def log (host : Host A E) : Dialogue A ε α → E → List (Entry A E)
  | done _, _ => []
  | call q next, e => ⟨q, (host q e).1, (host q e).2⟩ :: (next (host q e).1).log host (host q e).2

@[simp] theorem ask_bind (q : Q) (f : A q → Dialogue A ε β) : (ask q >>= f) = call q f := rfl

@[simp] theorem lift_ok_bind (a : α) (f : α → Dialogue A ε β) : (lift (.ok a) >>= f) = f a := rfl

/-! ### Paths -/

/-- A way through the tree and where it ends. -/
inductive Spoken : Dialogue A ε α → List ((q : Q) × A q) → Except ε α → Prop
  | done (r : Except ε α) : Spoken (done r) [] r
  | call {q : Q} {next : A q → Dialogue A ε α} (answer : A q) {said : List ((q : Q) × A q)}
      {r : Except ε α} : Spoken (next answer) said r → Spoken (call q next) (⟨q, answer⟩ :: said) r

variable {p : Dialogue A ε α} {said : List ((q : Q) × A q)} {r r' : Except ε α}

theorem spoken (host : Host A E) (p : Dialogue A ε α) (e : E) :
    Spoken p ((p.log host e).map Entry.said) (p.result host e) := by
  induction p generalizing e with
  | done r => exact .done r
  | call q next ih => exact .call _ (ih (host q e).1 (host q e).2)

theorem spoken_done (h : Spoken (done r' : Dialogue A ε α) said r) : said = [] ∧ r = r' := by
  cases h
  exact ⟨rfl, rfl⟩

theorem spoken_call {q : Q} {next : A q → Dialogue A ε α} (h : Spoken (call q next) said r) :
    ∃ answer rest, said = ⟨q, answer⟩ :: rest ∧ Spoken (next answer) rest r := by
  cases h with
  | call answer hnext => exact ⟨answer, _, rfl, hnext⟩

theorem spoken_bind {f : α → Dialogue A ε β} {r : Except ε β} (h : Spoken (p >>= f) said r) :
    (∃ e, Spoken p said (.error e) ∧ r = .error e) ∨
      ∃ a before after, Spoken p before (.ok a) ∧ Spoken (f a) after r ∧ said = before ++ after := by
  induction p generalizing said with
  | done result =>
    cases result with
    | error e =>
      obtain ⟨rfl, rfl⟩ := spoken_done h
      exact Or.inl ⟨e, .done _, rfl⟩
    | ok a => exact Or.inr ⟨a, [], said, .done _, h, rfl⟩
  | call q next ih =>
    obtain ⟨answer, rest, rfl, hrest⟩ := spoken_call h
    rcases ih answer hrest with ⟨e, hp, rfl⟩ | ⟨a, before, after, hp, hf, rfl⟩
    · exact Or.inl ⟨e, .call answer hp, rfl⟩
    · exact Or.inr ⟨a, _, after, .call answer hp, hf, rfl⟩

theorem spoken_attempt {r : Except ε (Except ε α)} (h : Spoken p.attempt said r) :
    ∃ result, r = .ok result ∧ Spoken p said result := by
  induction p generalizing said with
  | done result =>
    obtain ⟨rfl, rfl⟩ := spoken_done h
    exact ⟨result, rfl, .done _⟩
  | call q next ih =>
    obtain ⟨answer, rest, rfl, hrest⟩ := spoken_call h
    obtain ⟨result, hr, hp⟩ := ih answer hrest
    exact ⟨result, hr, .call answer hp⟩

/-! ### Postconditions -/

/-- Every path, and what it ends in, is as the postcondition says. -/
def Meets (p : Dialogue A ε α) (Post : List ((q : Q) × A q) → Except ε α → Prop) : Prop :=
  ∀ said r, Spoken p said r → Post said r

section Meets

variable {Post Post' : List ((q : Q) × A q) → Except ε α → Prop}

theorem Meets.mono (h : p.Meets Post) (himp : ∀ said r, Post said r → Post' said r) :
    p.Meets Post' :=
  fun said r hspoken => himp said r (h said r hspoken)

theorem Meets.of_done (h : Post [] r) : (done r).Meets Post := by
  intro said r' hspoken
  obtain ⟨rfl, rfl⟩ := spoken_done hspoken
  exact h

theorem Meets.of_call {q : Q} {next : A q → Dialogue A ε α}
    (h : ∀ answer, (next answer).Meets fun said r => Post (⟨q, answer⟩ :: said) r) :
    (call q next).Meets Post := by
  intro said r hspoken
  obtain ⟨answer, rest, rfl, hrest⟩ := spoken_call hspoken
  exact h answer rest r hrest

theorem Meets.bind {f : α → Dialogue A ε β} {Last : List ((q : Q) × A q) → Except ε β → Prop}
    (h : p.Meets Post) (herror : ∀ said e, Post said (.error e) → Last said (.error e))
    (hok : ∀ before a, Post before (.ok a) →
      (f a).Meets fun after r => Last (before ++ after) r) : (p >>= f).Meets Last := by
  intro said r hspoken
  rcases spoken_bind hspoken with ⟨e, hp, rfl⟩ | ⟨a, before, after, hp, hf, rfl⟩
  · exact herror said e (h said _ hp)
  · exact hok before a (h before _ hp) after r hf

theorem Meets.run (h : p.Meets Post) (host : Host A E) (e : E) :
    Post ((p.log host e).map Entry.said) (p.result host e) :=
  h _ _ (spoken host p e)

end Meets

/-! ### A question that stops -/

/-- The computation asks `stop` at once after every other question, and an answer to `stop` that
halts is the end. -/
inductive Watchful (stop : Q) (halts : A stop → Option ε) : Dialogue A ε α → Prop
  | done (r : Except ε α) : Watchful stop halts (done r)
  | stop {next : A stop → Dialogue A ε α} :
      (∀ answer e, halts answer = some e → next answer = Dialogue.done (.error e)) →
      (∀ answer, Watchful stop halts (next answer)) → Watchful stop halts (call stop next)
  | call {q : Q} {next : A q → Dialogue A ε α} : q ≠ stop →
      (∀ answer, ∃ after, next answer = Dialogue.call stop after) →
      (∀ answer, Watchful stop halts (next answer)) → Watchful stop halts (call q next)

variable {stop : Q} {halts : A stop → Option ε} {host : Host A E} {e : E}
  {before after : List (Entry A E)} {entry : Entry A E} {error : ε}

theorem Watchful.halted (h : Watchful stop halts p) {answer : A stop} {left : E}
    (hlog : p.log host e = before ++ ⟨stop, answer, left⟩ :: after)
    (hhalts : halts answer = some error) : p.result host e = .error error ∧ after = [] := by
  induction h generalizing e before with
  | done r => exact absurd hlog (by simp [log])
  | stop hend hnext ih =>
    rcases before with _ | ⟨first, before⟩
    · injection hlog with hentry hrest
      injection hentry with _ hanswer hleft
      have hdone := hend _ error ((congrArg halts hanswer).trans hhalts)
      unfold result
      unfold log at hrest
      rw [hdone] at hrest ⊢
      exact ⟨rfl, hrest.symm⟩
    · injection hlog with _ hrest
      exact ih _ hrest
  | call hq _ hnext ih =>
    rcases before with _ | ⟨first, before⟩
    · injection hlog with hentry _
      injection hentry with hquestion
      exact absurd hquestion hq
    · injection hlog with _ hrest
      exact ih _ hrest

theorem Watchful.wins (h : Watchful stop halts p)
    (hlog : p.log host e = before ++ entry :: after) (hentry : entry.question ≠ stop)
    (hhalts : halts (host stop entry.left).1 = some error) :
    p.result host e = .error error ∧
      after = [⟨stop, (host stop entry.left).1, (host stop entry.left).2⟩] := by
  induction h generalizing e before with
  | done r => exact absurd hlog (by simp [log])
  | stop hend hnext ih =>
    rcases before with _ | ⟨first, before⟩
    · injection hlog with hfirst _
      exact absurd (congrArg Entry.question hfirst).symm hentry
    · injection hlog with _ hrest
      exact ih _ hrest
  | @call q next hq hstop hnext ih =>
    rcases before with _ | ⟨first, before⟩
    · injection hlog with hfirst hrest
      subst hfirst
      obtain ⟨tail, htail⟩ := hstop (host q e).1
      have hwatch := hnext (host q e).1
      have hasked : (next (host q e).1).log host (host q e).2 = [] ++ after := hrest
      rw [htail] at hwatch hasked
      have hfirst : (Dialogue.call stop tail).log host (host q e).2 =
          [] ++ Entry.mk stop (host stop (host q e).2).1 (host stop (host q e).2).2 :: _ := rfl
      have hstopped := hwatch.halted hfirst hhalts
      unfold result
      rw [htail]
      refine ⟨hstopped.1, ?_⟩
      rw [List.nil_append] at hasked
      rw [← hasked]
      exact congrArg _ hstopped.2
    · injection hlog with _ hrest
      exact ih _ hrest

end Dialogue

end MadoPilot.Lib
