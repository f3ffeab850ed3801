import BookingPlatform.Library.Runs
import BookingPlatform.Library.Program
import Mathlib.Logic.Function.Basic

/-!
# Concurrent Sessions over a Shared State

A server runs any number of sessions. Each session handles one request by a
statement program; statements of different sessions interleave in any order, and
each acts atomically on the shared state. A session may also die between two
statements.

## Main definitions

- `Server`: which answers a statement can get, and what it does to the shared state.
- `World`: the shared state with every session's remaining program and its trace of
  statements and answers so far.
- `World.Step`: one step of the interleaving.
- `Tracker`: an assignment of protocol phases to sessions that every step respects.

## Main results

- `Tracker.follows`: if the program of every request follows a protocol, then in every
  reachable world every session does, from the phase the tracker assigns to it.
- `Server.traceTracker`: phases computed from a session's own trace.
-/

namespace BookingPlatform.Library

/-- A statement together with the answer it got. -/
abbrev Exchange (S : Signature) : Type := (s : S.Stmt) × S.Ans s

/-- One request being handled: what was asked, what is left to do, and the statements
issued so far with their answers, oldest first. -/
structure Session (S : Signature) (ρ ε α : Type) where
  request : ρ
  prog : Prog S ε α
  trace : List (Exchange S)

/-- A server for requests `ρ` over a shared state `G`, with sessions named by `T`.

`possible t g s r` says that in state `g` the statement `s` of session `t` can be
answered by `r` (a statement without a possible answer waits); `effect` is the state
after that answer, `crash` the state after the session is gone, and `env` a change
made by something other than the sessions. -/
structure Server (S : Signature) (T G ρ ε α : Type) where
  program : ρ → Prog S ε α
  possible : T → G → (s : S.Stmt) → S.Ans s → Prop
  effect : T → G → (s : S.Stmt) → S.Ans s → G
  crash : T → G → G
  env : G → G → Prop

/-- The shared state and all sessions. -/
structure World (S : Signature) (T G ρ ε α : Type) where
  shared : G
  session : T → Option (Session S ρ ε α)

/-- What a step is: a request arrives, a statement is answered, a session dies, or
the environment moves. -/
inductive Label (S : Signature) (T ρ : Type) where
  | start (t : T) (q : ρ)
  | call (t : T) (x : Exchange S)
  | crash (t : T)
  | env

namespace World

variable {S : Signature} {T G ρ ε α : Type}

/-- No session has started. -/
def fresh (g : G) : World S T G ρ ε α := ⟨g, fun _ => none⟩

@[simp] theorem fresh_shared (g : G) : (fresh g : World S T G ρ ε α).shared = g := rfl

@[simp] theorem fresh_session (g : G) (t : T) :
    (fresh g : World S T G ρ ε α).session t = none := rfl

variable [DecidableEq T]

/-- Session `t` starts on request `q`. -/
def start (V : Server S T G ρ ε α) (w : World S T G ρ ε α) (t : T) (q : ρ) :
    World S T G ρ ε α :=
  { w with session := Function.update w.session t (some ⟨q, V.program q, []⟩) }

/-- Session `t`, handling `q`, gets answer `r` to `s` and goes on with `p`. -/
def answered (V : Server S T G ρ ε α) (w : World S T G ρ ε α) (t : T) (q : ρ)
    (p : Prog S ε α) (tr : List (Exchange S)) (s : S.Stmt) (r : S.Ans s) :
    World S T G ρ ε α where
  shared := V.effect t w.shared s r
  session := Function.update w.session t (some ⟨q, p, tr ++ [⟨s, r⟩]⟩)

/-- Session `t` is gone. -/
def crashed (V : Server S T G ρ ε α) (w : World S T G ρ ε α) (t : T) :
    World S T G ρ ε α where
  shared := V.crash t w.shared
  session := Function.update w.session t none

/-- One step of the interleaving. -/
inductive Step (V : Server S T G ρ ε α) :
    World S T G ρ ε α → Label S T ρ → World S T G ρ ε α → Prop where
  | start {w : World S T G ρ ε α} {t : T} (q : ρ) (hidle : w.session t = none) :
      Step V w (.start t q) (w.start V t q)
  | call {w : World S T G ρ ε α} {t : T} {q : ρ} {tr : List (Exchange S)} {s : S.Stmt}
      {k : S.Ans s → Prog S ε α} (r : S.Ans s)
      (hat : w.session t = some ⟨q, .call s k, tr⟩)
      (hr : V.possible t w.shared s r) :
      Step V w (.call t ⟨s, r⟩) (w.answered V t q (k r) tr s r)
  | crash {w : World S T G ρ ε α} {t : T} {σ : Session S ρ ε α}
      (hat : w.session t = some σ) (hrun : σ.prog.outcome = none) :
      Step V w (.crash t) (w.crashed V t)
  | env {w : World S T G ρ ε α} {g : G} (hg : V.env w.shared g) :
      Step V w .env { w with shared := g }

@[simp] theorem start_shared (V : Server S T G ρ ε α) (w : World S T G ρ ε α) (t : T)
    (q : ρ) : (w.start V t q).shared = w.shared := rfl

@[simp] theorem answered_shared (V : Server S T G ρ ε α) (w : World S T G ρ ε α) (t : T)
    (q : ρ) (p : Prog S ε α) (tr : List (Exchange S)) (s : S.Stmt) (r : S.Ans s) :
    (w.answered V t q p tr s r).shared = V.effect t w.shared s r := rfl

@[simp] theorem crashed_shared (V : Server S T G ρ ε α) (w : World S T G ρ ε α) (t : T) :
    (w.crashed V t).shared = V.crash t w.shared := rfl

theorem start_session (V : Server S T G ρ ε α) (w : World S T G ρ ε α) (t u : T) (q : ρ) :
    (w.start V t q).session u = if u = t then some ⟨q, V.program q, []⟩ else w.session u := by
  simp [start, Function.update_apply]

theorem answered_session (V : Server S T G ρ ε α) (w : World S T G ρ ε α) (t u : T) (q : ρ)
    (p : Prog S ε α) (tr : List (Exchange S)) (s : S.Stmt) (r : S.Ans s) :
    (w.answered V t q p tr s r).session u =
      if u = t then some ⟨q, p, tr ++ [⟨s, r⟩]⟩ else w.session u := by
  simp [answered, Function.update_apply]

theorem crashed_session (V : Server S T G ρ ε α) (w : World S T G ρ ε α) (t u : T) :
    (w.crashed V t).session u = if u = t then none else w.session u := by
  simp [crashed, Function.update_apply]

end World

/-! ## Tracking phases -/

/-- Phases of the sessions of a world. A request starts in its initial phase, an answer
moves the phase of its own session as the protocol says, a session that dies is idle
again, and no step touches the phase of another session. -/
structure Tracker {S : Signature} {T G ρ ε α Φ : Type} [DecidableEq T]
    (V : Server S T G ρ ε α) (P : Protocol S Φ) (idle : Φ) (init : ρ → Φ) where
  phase : World S T G ρ ε α → T → Φ
  start_eq : ∀ (w : World S T G ρ ε α) t q, w.session t = none → phase w t = idle →
    phase (w.start V t q) t = init q
  start_frame : ∀ (w : World S T G ρ ε α) t q u, u ≠ t → phase (w.start V t q) u = phase w u
  call_answers : ∀ (w : World S T G ρ ε α) t q s (k : S.Ans s → Prog S ε α) tr r,
    w.session t = some ⟨q, .call s k, tr⟩ → P.allows (phase w t) s →
    V.possible t w.shared s r → P.answers (phase w t) s r
  call_eq : ∀ (w : World S T G ρ ε α) t q s (k : S.Ans s → Prog S ε α) tr r,
    w.session t = some ⟨q, .call s k, tr⟩ → V.possible t w.shared s r →
    phase (w.answered V t q (k r) tr s r) t = P.next (phase w t) s r
  call_frame : ∀ (w : World S T G ρ ε α) t q p tr s r u, u ≠ t →
    phase (w.answered V t q p tr s r) u = phase w u
  crash_eq : ∀ (w : World S T G ρ ε α) t, phase (w.crashed V t) t = idle
  crash_frame : ∀ (w : World S T G ρ ε α) t u, u ≠ t → phase (w.crashed V t) u = phase w u
  env_frame : ∀ (w : World S T G ρ ε α) g u, V.env w.shared g →
    phase { w with shared := g } u = phase w u

namespace Tracker

variable {S : Signature} {T G ρ ε α Φ : Type} [DecidableEq T]
variable {V : Server S T G ρ ε α} {P : Protocol S Φ} {idle : Φ} {init : ρ → Φ}

/-- Every session follows the protocol from its phase, and session names without a
request are idle. -/
def Conforms (K : Tracker V P idle init) (post : Φ → Except ε α → Prop)
    (w : World S T G ρ ε α) : Prop :=
  ∀ t, match w.session t with
    | none => K.phase w t = idle
    | some σ => σ.prog.Follows P post (K.phase w t)

variable {K : Tracker V P idle init} {post : Φ → Except ε α → Prop}
  {w w' : World S T G ρ ε α}

theorem Conforms.phase_idle (h : K.Conforms post w) {t : T} (ht : w.session t = none) :
    K.phase w t = idle := by
  have := h t
  rwa [ht] at this

theorem Conforms.running (h : K.Conforms post w) {t : T} {σ : Session S ρ ε α}
    (ht : w.session t = some σ) : σ.prog.Follows P post (K.phase w t) := by
  have := h t
  rwa [ht] at this

/-- The statement a session is about to issue is allowed in its phase. -/
theorem Conforms.allows (h : K.Conforms post w) {t : T} {q : ρ} {s : S.Stmt}
    {k : S.Ans s → Prog S ε α} {tr : List (Exchange S)}
    (ht : w.session t = some ⟨q, .call s k, tr⟩) : P.allows (K.phase w t) s :=
  (h.running ht).1

/-- One step keeps every session to the protocol. -/
theorem Conforms.step (hprog : ∀ q, (V.program q).Follows P post (init q))
    (h : K.Conforms post w) {l : Label S T ρ} (hs : World.Step V w l w') :
    K.Conforms post w' := by
  cases hs with
  | @start t q hidle =>
    intro u
    rw [World.start_session]
    by_cases hu : u = t
    · subst hu
      simpa [K.start_eq w u q hidle (h.phase_idle hidle)] using hprog q
    · simpa [hu, K.start_frame w t q u hu] using h u
  -- only the session that is answered moves on, and it does so along its program
  | @call t q tr s k r hat hr =>
    intro u
    rw [World.answered_session]
    by_cases hu : u = t
    · subst hu
      have hf := h.running hat
      have hans := K.call_answers w u q s k tr r hat hf.1 hr
      simpa [K.call_eq w u q s k tr r hat hr] using hf.2 r hans
    · simpa [hu, K.call_frame w t q (k r) tr s r u hu] using h u
  | @crash t σ hat hrun =>
    intro u
    rw [World.crashed_session]
    by_cases hu : u = t
    · subst hu
      simpa using K.crash_eq w u
    · simpa [hu, K.crash_frame w t u hu] using h u
  | @env g hg =>
    intro u
    simpa [K.env_frame w g u hg] using h u

/-- In every world reached from one where no session has started, every session follows
the protocol that the programs of all requests follow. -/
theorem follows (K : Tracker V P idle init) (hprog : ∀ q, (V.program q).Follows P post (init q))
    {guard : World S T G ρ ε α → Label S T ρ → Prop} {w₀ : World S T G ρ ε α}
    (h₀ : K.Conforms post w₀) (hrun : Runs (World.Step V) guard w₀ w) :
    K.Conforms post w :=
  hrun.invariant (fun _ _ _ hc _ hs => hc.step hprog hs) h₀

end Tracker

namespace Server

variable {S : Signature} {T G ρ ε α Φ : Type} [DecidableEq T]

/-- The phase reached after a trace. -/
def phaseAfter (P : Protocol S Φ) (init : Φ) (tr : List (Exchange S)) : Φ :=
  tr.foldl (fun ph x => P.next ph x.1 x.2) init

@[simp] theorem phaseAfter_nil (P : Protocol S Φ) (init : Φ) :
    phaseAfter P init [] = init := rfl

@[simp] theorem phaseAfter_concat (P : Protocol S Φ) (init : Φ)
    (tr : List (Exchange S)) (x : Exchange S) :
    phaseAfter P init (tr ++ [x]) = P.next (phaseAfter P init tr) x.1 x.2 := by
  simp [phaseAfter]

/-- The phase of a session as its own trace determines it. -/
def tracePhase (P : Protocol S Φ) (idle : Φ) (init : ρ → Φ)
    (w : World S T G ρ ε α) (t : T) : Φ :=
  match w.session t with
  | none => idle
  | some σ => phaseAfter P (init σ.request) σ.trace

/-- Phases computed from traces form a tracker, for a protocol that is prepared for
every answer. -/
def traceTracker (V : Server S T G ρ ε α) (P : Protocol S Φ) (idle : Φ)
    (init : ρ → Φ) (hall : ∀ ph s r, P.answers ph s r) : Tracker V P idle init where
  phase := tracePhase P idle init
  start_eq w t q _ _ := by simp [tracePhase, World.start_session]
  start_frame w t q u hu := by simp [tracePhase, World.start_session, hu]
  call_answers _ _ _ _ _ _ _ _ _ _ := hall _ _ _
  call_eq w t q s k tr r hat _ := by simp [tracePhase, World.answered_session, hat]
  call_frame w t q p tr s r u hu := by simp [tracePhase, World.answered_session, hu]
  crash_eq w t := by simp [tracePhase, World.crashed_session]
  crash_frame w t u hu := by simp [tracePhase, World.crashed_session, hu]
  env_frame _ _ _ _ := rfl

/-- They do so, too, for a protocol that is prepared for the answers that are possible. -/
def possibleTracker (V : Server S T G ρ ε α) (P : Protocol S Φ) (idle : Φ) (init : ρ → Φ)
    (hpossible : ∀ t g ph s r, V.possible t g s r → P.answers ph s r) : Tracker V P idle init :=
  { traceTracker V { P with answers := fun _ _ _ => True } idle init fun _ _ _ => trivial with
    call_answers := fun w t _ s _ _ r _ _ hr => hpossible t w.shared _ s r hr }

end Server

end BookingPlatform.Library
