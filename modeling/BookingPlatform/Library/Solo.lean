import BookingPlatform.Library.Server
import Mathlib.Data.Set.Finite.Basic

/-!
# Sessions that Run Alone

The execution of one session while no other session moves, as a relation between the
state a program starts in, its result and the state it ends in. It composes along the
program, and it is a run of the interleaving semantics, so it shows what a request can
still achieve from a reachable world.

## Main results

- `Server.executes_bind`, `Server.executes_tryCatch`: execution of composed programs.
- `Server.exists_guarded_run_of_executes`, `Server.exists_run_of_leads`: an execution, or a part of
  one, is a run.
- `World.finite_started`: in a reachable world finitely many sessions have started.
-/

namespace BookingPlatform.Library

variable {S : Signature} {T G ρ ε α β γ : Type}

namespace Server

/-- With no other session moving, session `t` takes the program from state `g` to the
result `r` in state `g'`. -/
def Executes (V : Server S T G ρ ε α) (t : T) : Prog S ε β → G → Except ε β → G → Prop
  | .ret a, g, r, g' => r = .ok a ∧ g' = g
  | .raise e, g, r, g' => r = .error e ∧ g' = g
  | .call s k, g, r, g' =>
    ∃ x, V.possible t g s x ∧ V.Executes t (k x) (V.effect t g s x) r g'

variable {V : Server S T G ρ ε α} {t : T} {g g₁ g' : G}

theorem executes_ret (a : β) : V.Executes t (.ret a : Prog S ε β) g (.ok a) g := ⟨rfl, rfl⟩

theorem executes_call {s : S.Stmt} {k : S.Ans s → Prog S ε β} {r : Except ε β} (x : S.Ans s)
    (hx : V.possible t g s x) (h : V.Executes t (k x) (V.effect t g s x) r g') :
    V.Executes t (.call s k) g r g' :=
  ⟨x, hx, h⟩

/-- A program that returns is followed by its continuation. -/
theorem executes_bind {p : Prog S ε β} {f : β → Prog S ε γ} {b : β} {r : Except ε γ}
    (hp : V.Executes t p g (.ok b) g₁) (hf : V.Executes t (f b) g₁ r g') :
    V.Executes t (p >>= f) g r g' := by
  induction p generalizing g with
  | ret a =>
    obtain ⟨hb, rfl⟩ := hp
    cases hb
    exact hf
  | raise e => cases hp.1
  | call s k ih =>
    obtain ⟨x, hx, hk⟩ := hp
    exact ⟨x, hx, ih x hk⟩

/-- The handler of a program that returns is not run. -/
theorem executes_tryCatch {p : Prog S ε β} {handler : ε → Prog S ε β} {b : β}
    (hp : V.Executes t p g (.ok b) g') : V.Executes t (p.tryCatch handler) g (.ok b) g' := by
  induction p generalizing g with
  | ret a => exact hp
  | raise e => cases hp.1
  | call s k ih =>
    obtain ⟨x, hx, hk⟩ := hp
    exact ⟨x, hx, ih x hk⟩

/-- With no other session moving, session `t` takes the program from state `g` to the rest `p'` in
state `g'`. -/
inductive Leads (V : Server S T G ρ ε α) (t : T) : Prog S ε β → G → Prog S ε β → G → Prop where
  | refl (p : Prog S ε β) (g : G) : Leads V t p g p g
  | call {s : S.Stmt} {k : S.Ans s → Prog S ε β} {p' : Prog S ε β} {g g' : G} (x : S.Ans s)
      (hx : V.possible t g s x) (h : Leads V t (k x) (V.effect t g s x) p' g') :
      Leads V t (.call s k) g p' g'

variable [DecidableEq T]

/-- A part of an execution is a run in which only that session moves. -/
theorem exists_run_of_leads {p p' : Prog S ε α} {w : World S T G ρ ε α} {q : ρ}
    {tr : List (Exchange S)} {guard : World S T G ρ ε α → Label S T ρ → Prop}
    (hguard : ∀ w x, guard w (.call t x)) (h : V.Leads t p w.shared p' g')
    (hat : w.session t = some ⟨q, p, tr⟩) :
    ∃ w' tr', Runs (World.Step V) guard w w' ∧ w'.shared = g' ∧
      w'.session t = some ⟨q, p', tr'⟩ := by
  generalize hg : w.shared = g at h
  induction h generalizing w tr with
  | refl p g => exact ⟨w, tr, .refl, hg, hat⟩
  | @call s k p' g g' x hx h ih =>
    subst hg
    have hself : (w.answered V t q (k x) tr s x).session t =
        some ⟨q, k x, tr ++ [⟨s, x⟩]⟩ := by
      simp [World.answered_session]
    obtain ⟨w', tr', hrun, hrest⟩ := ih (w := w.answered V t q (k x) tr s x) hself rfl
    exact ⟨w', tr', .head ⟨_, hguard w _, .call x hat hx⟩ hrun, hrest⟩

/-- An execution is a run in which only that session moves. -/
theorem exists_guarded_run_of_executes {p : Prog S ε α} {r : Except ε α} {w : World S T G ρ ε α}
    {q : ρ} {tr : List (Exchange S)} {guard : World S T G ρ ε α → Label S T ρ → Prop}
    (hguard : ∀ w x, guard w (.call t x)) (h : V.Executes t p w.shared r g')
    (hat : w.session t = some ⟨q, p, tr⟩) :
    ∃ w' p' tr', Runs (World.Step V) guard w w' ∧ w'.shared = g' ∧
      w'.session t = some ⟨q, p', tr'⟩ ∧ p'.outcome = some r := by
  induction p generalizing w tr with
  | ret a =>
    obtain ⟨rfl, rfl⟩ := h
    exact ⟨w, _, tr, .refl, rfl, hat, rfl⟩
  | raise e =>
    obtain ⟨rfl, rfl⟩ := h
    exact ⟨w, _, tr, .refl, rfl, hat, rfl⟩
  | call s k ih =>
    obtain ⟨x, hx, hk⟩ := h
    -- after the answer the session is at what follows
    have hself : (w.answered V t q (k x) tr s x).session t =
        some ⟨q, k x, tr ++ [⟨s, x⟩]⟩ := by
      simp [World.answered_session]
    obtain ⟨w', p', tr', hrun, hrest⟩ := ih x (w := w.answered V t q (k x) tr s x) hk hself
    exact ⟨w', p', tr', .head ⟨_, hguard w _, .call x hat hx⟩ hrun, hrest⟩

theorem exists_run_of_executes {p : Prog S ε α} {r : Except ε α} {w : World S T G ρ ε α} {q : ρ}
    {tr : List (Exchange S)} (h : V.Executes t p w.shared r g')
    (hat : w.session t = some ⟨q, p, tr⟩) :
    ∃ w' p' tr', Runs (World.Step V) anyStep w w' ∧ w'.shared = g' ∧
      w'.session t = some ⟨q, p', tr'⟩ ∧ p'.outcome = some r :=
  exists_guarded_run_of_executes (fun _ _ => trivial) h hat

end Server

namespace World

variable [DecidableEq T] {V : Server S T G ρ ε α} {w w' : World S T G ρ ε α}

/-- Each step starts one session at most. -/
theorem finite_started {guard : World S T G ρ ε α → Label S T ρ → Prop} {g : G}
    (hrun : Runs (World.Step V) guard (World.fresh g) w) : {t | w.session t ≠ none}.Finite := by
  apply hrun.invariant (I := fun v => {t | v.session t ≠ none}.Finite)
  · rintro v l v' hfinite - hs
    -- a step that moves one session adds at most this one
    have hone : ∀ t, (∀ u, u ≠ t → v'.session u = v.session u) →
        {u | v'.session u ≠ none}.Finite := by
      intro t hothers
      apply (hfinite.insert t).subset
      intro u hu
      by_cases hut : u = t
      · exact .inl hut
      · exact .inr fun hnone => hu ((hothers u hut).trans hnone)
    cases hs with
    | @start t q hidle => exact hone t fun u hu => by rw [start_session, if_neg hu]
    | @call t q tr s k r hat hr => exact hone t fun u hu => by rw [answered_session, if_neg hu]
    | @crash t σ hat hrunning => exact hone t fun u hu => by rw [crashed_session, if_neg hu]
    | env hg => exact hfinite
  · simp

/-- A server that gives fewer answers makes no other steps. -/
theorem Step.weaken {possible : T → G → (s : S.Stmt) → S.Ans s → Prop}
    (hle : ∀ t g s r, possible t g s r → V.possible t g s r) {l : Label S T ρ}
    (hs : World.Step { V with possible } w l w') : World.Step V w l w' := by
  cases hs with
  | start q hidle => exact .start q hidle
  | call r hat hr => exact .call r hat (hle _ _ _ _ hr)
  | crash hat hrunning => exact .crash hat hrunning
  | env hg => exact .env hg

end World

end BookingPlatform.Library
