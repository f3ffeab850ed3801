import Mathlib.Logic.Basic

/-!
# Statement Programs

Programs that issue statements to a shared service one at a time and choose what to
do next from each answer. Between two statements other programs may run, so a
statement is the unit of interleaving.

## Main definitions

- `Signature`: the statements of a service and the type of the answer to each.
- `Prog S ε α`: programs over `S` that return an `α` or raise an `ε`.
- `Protocol S Φ`: a discipline for issuing statements, as an automaton over statements
  and answers.
- `Prog.Follows`: a program keeps to a protocol from a given phase.

## Main results

- `Prog.follows_bind`, `Prog.follows_tryCatch`: sequencing and exception rules.
- `Prog.Follows.mono`: rule of consequence.
- `Prog.Uses.follows`: footprint rule, for programs that keep out of a protocol's way.
-/

namespace BookingPlatform.Library

/-- The statements a program can issue, and the type of the answer to each. -/
structure Signature where
  Stmt : Type
  Ans : Stmt → Type

/-- A program over `S`: it returns, raises, or issues a statement and continues with
its answer. -/
inductive Prog (S : Signature) (ε α : Type) : Type where
  | ret (a : α)
  | raise (e : ε)
  | call (s : S.Stmt) (k : S.Ans s → Prog S ε α)

namespace Prog

variable {S : Signature} {ε α β : Type}

/-- Sequencing; an exception skips the continuation. -/
def bind : Prog S ε α → (α → Prog S ε β) → Prog S ε β
  | ret a, f => f a
  | raise e, _ => raise e
  | call s k, f => call s fun r => (k r).bind f

/-- `try … catch`. -/
def tryCatch : Prog S ε α → (ε → Prog S ε α) → Prog S ε α
  | ret a, _ => ret a
  | raise e, h => h e
  | call s k, h => call s fun r => (k r).tryCatch h

instance : Monad (Prog S ε) where
  pure := ret
  bind := bind

/-- What a program has come to: `none` while it still has a statement to issue. -/
def outcome : Prog S ε α → Option (Except ε α)
  | ret a => some (.ok a)
  | raise e => some (.error e)
  | call _ _ => none

@[simp] theorem pure_eq (a : α) : (pure a : Prog S ε α) = ret a := rfl

@[simp] theorem ret_bind (a : α) (f : α → Prog S ε β) : (ret a >>= f) = f a := rfl

@[simp] theorem raise_bind (e : ε) (f : α → Prog S ε β) : (raise e >>= f) = raise e := rfl

@[simp] theorem call_bind (s : S.Stmt) (k : S.Ans s → Prog S ε α) (f : α → Prog S ε β) :
    (call s k >>= f) = call s fun r => k r >>= f := rfl

/-- A program that returns what it has got. -/
theorem bind_ret (p : Prog S ε α) : (p >>= fun a => ret a) = p := by
  induction p with
  | ret a => rfl
  | raise e => rfl
  | call s k ih => exact congrArg (call s) (funext ih)

@[simp] theorem ret_tryCatch (a : α) (h : ε → Prog S ε α) : (ret a).tryCatch h = ret a := rfl

@[simp] theorem raise_tryCatch (e : ε) (h : ε → Prog S ε α) : (raise e).tryCatch h = h e := rfl

@[simp] theorem call_tryCatch (s : S.Stmt) (k : S.Ans s → Prog S ε α)
    (h : ε → Prog S ε α) :
    (call s k).tryCatch h = call s fun r => (k r).tryCatch h := rfl

end Prog

/-! ## Protocols -/

/-- A discipline for issuing statements.

`allows ph s` says that `s` may be issued in phase `ph`, `answers ph s r` that `r` is
an answer a program in that phase has to be prepared for, and `next` how the phase
changes. -/
structure Protocol (S : Signature) (Φ : Type) where
  allows : Φ → S.Stmt → Prop
  answers : Φ → (s : S.Stmt) → S.Ans s → Prop
  next : Φ → (s : S.Stmt) → S.Ans s → Φ

/-- Statement `s` may be issued in phase `ph`, and every answer leads to `Q`. -/
def Protocol.Issues {S : Signature} {Φ : Type} (P : Protocol S Φ) (ph : Φ) (s : S.Stmt)
    (Q : Φ → S.Ans s → Prop) : Prop :=
  P.allows ph s ∧ ∀ r, P.answers ph s r → Q (P.next ph s r) r

theorem Protocol.issues_congr {S : Signature} {Φ : Type} {P : Protocol S Φ} {ph : Φ} {s : S.Stmt}
    {Q Q' : Φ → S.Ans s → Prop} (h : ∀ ph' r, Q ph' r ↔ Q' ph' r) :
    P.Issues ph s Q ↔ P.Issues ph s Q' :=
  and_congr_right fun _ => forall₂_congr fun r _ => h _ r

namespace Prog

variable {S : Signature} {ε α β Φ : Type} {P : Protocol S Φ}

/-- Started in phase `ph`, the program issues only statements that the protocol
allows, and its result satisfies `post` in the phase it ends in. -/
def Follows (P : Protocol S Φ) (post : Φ → Except ε α → Prop) :
    Prog S ε α → Φ → Prop
  | ret a, ph => post ph (.ok a)
  | raise e, ph => post ph (.error e)
  | call s k, ph => P.Issues ph s fun ph' r => (k r).Follows P post ph'

variable {post post' : Φ → Except ε α → Prop} {ph : Φ}

@[simp] theorem follows_ret (a : α) :
    (ret a : Prog S ε α).Follows P post ph ↔ post ph (.ok a) := Iff.rfl

@[simp] theorem follows_raise (e : ε) :
    (raise e : Prog S ε α).Follows P post ph ↔ post ph (.error e) := Iff.rfl

@[simp] theorem follows_call (s : S.Stmt) (k : S.Ans s → Prog S ε α) :
    (call s k).Follows P post ph ↔ P.Issues ph s fun ph' r => (k r).Follows P post ph' := Iff.rfl

/-- Rule of consequence. -/
theorem Follows.mono (hpost : ∀ ph r, post ph r → post' ph r) {p : Prog S ε α}
    (h : p.Follows P post ph) : p.Follows P post' ph := by
  induction p generalizing ph with
  | ret a => exact hpost _ _ h
  | raise e => exact hpost _ _ h
  | call s k ih => exact ⟨h.1, fun r hr => ih r (h.2 r hr)⟩

/-- Equivalent postconditions are interchangeable. -/
theorem follows_congr (hpost : ∀ ph r, post ph r ↔ post' ph r) {p : Prog S ε α} :
    p.Follows P post ph ↔ p.Follows P post' ph :=
  ⟨.mono fun ph r => (hpost ph r).1, .mono fun ph r => (hpost ph r).2⟩

/-- Sequencing rule: `p` ends either in an exception that satisfies the final
postcondition, or in a value and phase from which the continuation follows on. -/
theorem follows_bind {p : Prog S ε α} {f : α → Prog S ε β}
    {post : Φ → Except ε β → Prop} :
    (p >>= f).Follows P post ph ↔
      p.Follows P (fun ph r => match r with
        | .ok a => (f a).Follows P post ph
        | .error e => post ph (.error e)) ph := by
  induction p generalizing ph with
  | ret a => exact Iff.rfl
  | raise e => exact Iff.rfl
  | call s k ih => exact Protocol.issues_congr fun _ r => ih r

/-- Exception rule: a value of the body satisfies the final postcondition, and the
handler follows on from every exception. -/
theorem follows_tryCatch {p : Prog S ε α} {handler : ε → Prog S ε α} :
    (p.tryCatch handler).Follows P post ph ↔
      p.Follows P (fun ph r => match r with
        | .ok a => post ph (.ok a)
        | .error e => (handler e).Follows P post ph) ph := by
  induction p generalizing ph with
  | ret a => exact Iff.rfl
  | raise e => exact Iff.rfl
  | call s k ih => exact Protocol.issues_congr fun _ r => ih r

/-- Programs of which nothing is asked at their end. -/
theorem follows_bind_any {p : Prog S ε α} {f : α → Prog S ε β}
    (hp : p.Follows P (fun _ _ => True) ph) (hf : ∀ a ph, (f a).Follows P (fun _ _ => True) ph) :
    (p >>= f).Follows P (fun _ _ => True) ph :=
  follows_bind.2 <| hp.mono fun ph' r _ => match r with
    | .ok a => hf a ph'
    | .error _ => trivial

theorem follows_tryCatch_any {p : Prog S ε α} {handler : ε → Prog S ε α}
    (hp : p.Follows P (fun _ _ => True) ph)
    (hh : ∀ e ph, (handler e).Follows P (fun _ _ => True) ph) :
    (p.tryCatch handler).Follows P (fun _ _ => True) ph :=
  follows_tryCatch.2 <| hp.mono fun ph' r _ => match r with
    | .ok _ => trivial
    | .error e => hh e ph'

/-! ## Footprints -/

/-- The discipline of issuing only statements in `X`. -/
def onlyIn (X : S.Stmt → Prop) : Protocol S Unit where
  allows _ s := X s
  answers _ _ _ := True
  next _ _ _ := ()

/-- All statements the program can issue are in `X`. -/
def Uses (X : S.Stmt → Prop) (p : Prog S ε α) : Prop :=
  ∀ ph, p.Follows (onlyIn X) (fun _ _ => True) ph

/-- Footprint rule: if the statements in `X` are allowed wherever `I` holds, and keep it,
a program that uses only those follows the protocol and ends where `I` holds. -/
theorem Uses.follows {X : S.Stmt → Prop} {I : Φ → Prop}
    (hI : ∀ ph s, X s → I ph → P.allows ph s ∧ ∀ r, I (P.next ph s r)) {p : Prog S ε α}
    (h : p.Uses X) (hph : I ph) : p.Follows P (fun ph _ => I ph) ph := by
  induction p generalizing ph with
  | ret a => exact hph
  | raise e => exact hph
  | call s k ih =>
    obtain ⟨hallow, hnext⟩ := hI ph s (h ()).1 hph
    exact ⟨hallow, fun r _ => ih r (fun ph => (h ph).2 r trivial) (hnext r)⟩

theorem Uses.mono {X X' : S.Stmt → Prop} (hX : ∀ s, X s → X' s) {p : Prog S ε α}
    (h : p.Uses X) : p.Uses X' :=
  fun _ => (Uses.follows (I := fun _ => True)
    (fun _ s hs _ => ⟨hX s hs, fun _ => trivial⟩) h trivial).mono
    fun _ _ _ => trivial

theorem Uses.bind {X : S.Stmt → Prop} {p : Prog S ε α} {f : α → Prog S ε β} (hp : p.Uses X)
    (hf : ∀ a, (f a).Uses X) : (p >>= f).Uses X := fun ph =>
  follows_bind.2 <| (hp ph).mono fun ph' r _ => match r with
    | .ok a => hf a ph'
    | .error _ => trivial

theorem Uses.tryCatch {X : S.Stmt → Prop} {p : Prog S ε α} {handler : ε → Prog S ε α}
    (hp : p.Uses X) (hh : ∀ e, (handler e).Uses X) : (p.tryCatch handler).Uses X := fun ph =>
  follows_tryCatch.2 <| (hp ph).mono fun ph' r _ => match r with
    | .ok _ => trivial
    | .error e => hh e ph'

end Prog

end BookingPlatform.Library
