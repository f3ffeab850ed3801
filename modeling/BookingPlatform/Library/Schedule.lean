import BookingPlatform.Library.Server
import Mathlib.Algebra.Ring.Nat

/-!
# Executable Schedules

A server whose answers can be computed can be run: a schedule says which session moves
next, and playing it gives a world that the interleaving semantics reaches.

## Main results

- `Responder.play_runs`: the world a schedule plays to is reached by a run, and the run
  keeps to a guard if every step of the schedule was checked against it.
-/

namespace BookingPlatform.Library

variable {S : Signature} {T G ρ ε α κ : Type}

/-- Computed answers: `answer c t g s` is the answer session `t` gets to `s` in state `g`
under choice `c`, if it gets one. -/
structure Responder (V : Server S T G ρ ε α) (κ : Type) where
  answer : κ → T → G → (s : S.Stmt) → Option (S.Ans s)
  sound : ∀ c t g s r, answer c t g s = some r → V.possible t g s r

/-- One move of a schedule: a request arrives, a session gets its next answer, or a
session dies. -/
inductive Move (T ρ κ : Type) where
  | start (t : T) (q : ρ)
  | go (t : T) (c : κ)
  | crash (t : T)

/-! The sessions of a schedule are numbered from zero. -/

instance neZero_two : NeZero 2 := ⟨by decide⟩
instance neZero_three : NeZero 3 := ⟨by decide⟩
instance neZero_four : NeZero 4 := ⟨by decide⟩

namespace Responder

variable {V : Server S T G ρ ε α} [DecidableEq T]

/-- One move, if it is possible and `ok` admits it. -/
def move (R : Responder V κ) (ok : World S T G ρ ε α → Label S T ρ → Bool)
    (w : World S T G ρ ε α) : Move T ρ κ → Option (World S T G ρ ε α)
  | .start t q =>
    match w.session t with
    | none => if ok w (.start t q) then some (w.start V t q) else none
    | some _ => none
  | .go t c =>
    match w.session t with
    | some ⟨q, .call s k, tr⟩ =>
      match R.answer c t w.shared s with
      | some r =>
        if ok w (.call t ⟨s, r⟩) then some (w.answered V t q (k r) tr s r) else none
      | none => none
    | _ => none
  | .crash t =>
    match w.session t with
    | some ⟨_, .call _ _, _⟩ => if ok w (.crash t) then some (w.crashed V t) else none
    | _ => none

/-- Play a schedule; `none` if some move is not possible. -/
def play (R : Responder V κ) (ok : World S T G ρ ε α → Label S T ρ → Bool) :
    World S T G ρ ε α → List (Move T ρ κ) → Option (World S T G ρ ε α)
  | w, [] => some w
  | w, m :: ms =>
    match R.move ok w m with
    | some w' => R.play ok w' ms
    | none => none

variable {R : Responder V κ} {ok : World S T G ρ ε α → Label S T ρ → Bool}
  {guard : World S T G ρ ε α → Label S T ρ → Prop}

/-- A move is a step that `ok` admits. -/
theorem move_step {w w' : World S T G ρ ε α} {m : Move T ρ κ} (h : R.move ok w m = some w') :
    ∃ l, ok w l = true ∧ World.Step V w l w' := by
  cases m with
  -- each branch that goes through has checked what its step asks for
  | start t q =>
    simp only [move] at h
    split at h
    · rename_i hidle
      split at h
      · rename_i hok
        cases h
        exact ⟨_, hok, .start q hidle⟩
      · cases h
    · cases h
  | go t c =>
    simp only [move] at h
    split at h
    · rename_i q s k tr hat
      split at h
      · rename_i r hr
        split at h
        · rename_i hok
          cases h
          exact ⟨_, hok, .call r hat (R.sound c t w.shared s r hr)⟩
        · cases h
      · cases h
    · cases h
  | crash t =>
    simp only [move] at h
    split at h
    · rename_i hat
      split at h
      · rename_i hok
        cases h
        exact ⟨_, hok, .crash hat rfl⟩
      · cases h
    · cases h

/-- Playing a schedule is a run under every guard that the check establishes. -/
theorem play_runs (hok : ∀ w l, ok w l = true → guard w l) {w w' : World S T G ρ ε α}
    {ms : List (Move T ρ κ)} (h : R.play ok w ms = some w') :
    Runs (World.Step V) guard w w' := by
  induction ms generalizing w with
  | nil =>
    cases h
    exact .refl
  | cons m ms ih =>
    simp only [play] at h
    split at h
    · rename_i w₁ hw₁
      obtain ⟨l, hl, hs⟩ := move_step hw₁
      exact .head ⟨l, hok w l hl, hs⟩ (ih h)
    · cases h

/-- A schedule whose end passes the test `p` reaches a world with the property that `p`
establishes. -/
theorem exists_run (R : Responder V κ) (hok : ∀ w l, ok w l = true → guard w l)
    (w : World S T G ρ ε α) (ms : List (Move T ρ κ)) (p : World S T G ρ ε α → Bool)
    (h : (R.play ok w ms).any p = true) :
    ∃ w', Runs (World.Step V) guard w w' ∧ p w' = true := by
  obtain ⟨w', hw', hp⟩ := (Option.any_eq_true _ _).1 h
  exact ⟨w', play_runs hok hw', hp⟩

/-- A schedule whose end passes the test `p` reaches a world with the property that `p`
establishes by an unrestricted run. -/
theorem exists_anyRun (R : Responder V κ) (w : World S T G ρ ε α) (ms : List (Move T ρ κ))
    (p : World S T G ρ ε α → Bool) (h : (R.play (fun _ _ => true) w ms).any p = true) :
    ∃ w', Runs (World.Step V) anyStep w w' ∧ p w' = true :=
  R.exists_run (fun _ _ _ => trivial) w ms p h

end Responder

end BookingPlatform.Library
