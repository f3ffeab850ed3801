import BookingPlatform.Library.Server

/-!
# Observations

What a session reads is true when it reads it, and it need not be true any more when the session
acts on it. A phase records what a session has observed; all of it held at some moment of the
request that the session is serving.

## Main definitions

- `Meanwhile`: something held during the request of a session.
- `Observes`: what a phase records is what answers have shown.
- `history`: the discipline whose phases are the traces themselves.

## Main results

- `meanwhile_of_seen`: what the phase of a session records held during its request.
- `meanwhile_of_mem_trace`: every answer in a trace was a possible one during the request.
-/

namespace BookingPlatform.Library

variable {S : Signature} {T G ρ ε α Φ O : Type} [DecidableEq T] {V : Server S T G ρ ε α}
  {guard : World S T G ρ ε α → Label S T ρ → Prop} {w₀ w w' : World S T G ρ ε α} {t : T}

/-- Steps at which no request of session `t` begins. -/
def Continues (guard : World S T G ρ ε α → Label S T ρ → Prop) (t : T) (w : World S T G ρ ε α)
    (l : Label S T ρ) : Prop := guard w l ∧ ∀ q, l ≠ .start t q

/-- At a moment of the run from `w₀` to `w` the property held, and session `t` was serving the
request that it serves in `w`. -/
def Meanwhile (V : Server S T G ρ ε α) (guard : World S T G ρ ε α → Label S T ρ → Prop)
    (w₀ w : World S T G ρ ε α) (t : T) (holds : G → Prop) : Prop :=
  ∃ w₁ σ, Runs (World.Step V) guard w₀ w₁ ∧ w₁.session t = some σ ∧ holds w₁.shared ∧
    Runs (World.Step V) (Continues guard t) w₁ w

namespace Meanwhile

variable {holds holds' : G → Prop}

/-- What holds now. -/
theorem now (hrun : Runs (World.Step V) guard w₀ w) {σ : Session S ρ ε α}
    (ht : w.session t = some σ) (h : holds w.shared) : Meanwhile V guard w₀ w t holds :=
  ⟨w, σ, hrun, ht, h, .refl⟩

theorem step (h : Meanwhile V guard w₀ w t holds) {l : Label S T ρ} (hg : guard w l)
    (hl : ∀ q, l ≠ .start t q) (hs : World.Step V w l w') : Meanwhile V guard w₀ w' t holds := by
  obtain ⟨w₁, σ, hbefore, ht, hholds, hafter⟩ := h
  exact ⟨w₁, σ, hbefore, ht, hholds, hafter.snoc ⟨hg, hl⟩ hs⟩

theorem mono (h : Meanwhile V guard w₀ w t holds) (hle : ∀ g, holds g → holds' g) :
    Meanwhile V guard w₀ w t holds' := by
  obtain ⟨w₁, σ, hbefore, ht, hholds, hafter⟩ := h
  exact ⟨w₁, σ, hbefore, ht, hle _ hholds, hafter⟩

end Meanwhile

/-- A request begins with nothing observed, and what an answer adds holds before the statement or
after it. -/
structure Observes (V : Server S T G ρ ε α) (P : Protocol S Φ) (idle : Φ) (init : ρ → Φ) (t : T)
    (seen : Φ → O → Prop) (holds : O → G → Prop) : Prop where
  idle : ∀ o, ¬seen idle o
  init : ∀ q o, ¬seen (init q) o
  next : ∀ g ph s r o, V.possible t g s r → seen (P.next ph s r) o →
    seen ph o ∨ holds o g ∨ holds o (V.effect t g s r)

section Observations

variable {P : Protocol S Φ} {idle : Φ} {init : ρ → Φ} {K : Tracker V P idle init}
  {post : Φ → Except ε α → Prop} {seen : Φ → O → Prop} {holds : O → G → Prop}

/-- One step of the interleaving. -/
theorem Observes.step (hobs : Observes V P idle init t seen holds) (hconforms : K.Conforms post w)
    (hrun : Runs (World.Step V) guard w₀ w)
    (h : ∀ o, seen (K.phase w t) o → Meanwhile V guard w₀ w t (holds o)) {l : Label S T ρ}
    (hg : guard w l) (hs : World.Step V w l w') {o : O} (ho : seen (K.phase w' t) o) :
    Meanwhile V guard w₀ w' t (holds o) := by
  have hrun' := hrun.snoc hg hs
  cases hs with
  -- a session that starts has seen nothing
  | @start u q hidle =>
    by_cases hu : t = u
    · subst hu
      rw [K.start_eq w t q hidle (hconforms.phase_idle hidle)] at ho
      exact absurd ho (hobs.init q o)
    · rw [K.start_frame w u q t hu] at ho
      apply (h o ho).step hg _ (.start q hidle)
      intro q' heq
      cases heq
      exact hu rfl
  | @call u q tr s k r hat hr =>
    have hcall : World.Step V w (.call u ⟨s, r⟩) (w.answered V u q (k r) tr s r) := .call r hat hr
    have hgoes : ∀ q' : ρ, (Label.call u ⟨s, r⟩ : Label S T ρ) ≠ .start t q' :=
      fun q' heq => by cases heq
    by_cases hu : t = u
    · subst hu
      rw [K.call_eq w t q s k tr r hat hr] at ho
      -- what has been seen was seen before, or holds before or after this statement
      rcases hobs.next w.shared (K.phase w t) s r o hr ho with hold | hbefore | hafter
      · exact (h o hold).step hg hgoes hcall
      · exact (Meanwhile.now hrun hat hbefore).step hg hgoes hcall
      · have hserving : (w.answered V t q (k r) tr s r).session t = some ⟨q, k r, tr ++ [⟨s, r⟩]⟩ :=
          Function.update_self _ _ _
        exact .now hrun' hserving hafter
    · rw [K.call_frame w u q (k r) tr s r t hu] at ho
      exact (h o ho).step hg hgoes hcall
  -- a session that has died has seen nothing
  | @crash u σ hat hrunning =>
    by_cases hu : t = u
    · subst hu
      rw [K.crash_eq w t] at ho
      exact absurd ho (hobs.idle o)
    · rw [K.crash_frame w u t hu] at ho
      apply (h o ho).step hg _ (.crash hat hrunning)
      intro q' heq
      cases heq
  | @env g hg' =>
    rw [K.env_frame w g t hg'] at ho
    apply (h o ho).step hg _ (.env hg')
    intro q' heq
    cases heq

/-- What a session has observed held while it was serving its request. -/
theorem meanwhile_of_seen (hobs : Observes V P idle init t seen holds)
    (hprog : ∀ q, (V.program q).Follows P post (init q)) (h₀ : K.Conforms post w₀)
    (ht : w₀.session t = none) (hrun : Runs (World.Step V) guard w₀ w) {o : O}
    (ho : seen (K.phase w t) o) :
    Meanwhile V guard w₀ w t (holds o) := by
  induction hrun generalizing o with
  | refl =>
    rw [h₀.phase_idle ht] at ho
    exact absurd ho (hobs.idle o)
  | tail hbefore hlast ih =>
    obtain ⟨l, hg, hs⟩ := hlast
    exact hobs.step (K.follows hprog h₀ hbefore) hbefore (fun o ho => ih ho) hg hs ho

end Observations

/-! ## Histories -/

/-- The request of a session and its trace, as a phase. -/
structure History (S : Signature) (ρ : Type) where
  request : Option ρ
  trace : List (Exchange S)

def History.idle : History S ρ := ⟨none, []⟩

def History.start (q : ρ) : History S ρ := ⟨some q, []⟩

/-- The discipline that says of every statement what has been seen before it is issued. -/
def history (allows : ρ → List (Exchange S) → S.Stmt → Prop)
    (answers : (s : S.Stmt) → S.Ans s → Prop) :
    Protocol S (History S ρ) where
  allows h s := ∀ q, h.request = some q → allows q h.trace s
  answers _ s r := answers s r
  next h s r := { h with trace := h.trace ++ [⟨s, r⟩] }

section Histories

variable {allows : ρ → List (Exchange S) → S.Stmt → Prop} {answers : (s : S.Stmt) → S.Ans s → Prop}
  {ends : History S ρ → Except ε α → Prop}

/-- What it takes to issue a statement after a trace. -/
theorem issues_history {q : ρ} {tr : List (Exchange S)} {s : S.Stmt}
    {Q : History S ρ → S.Ans s → Prop} (hallow : allows q tr s)
    (h : ∀ r, answers s r → Q ⟨some q, tr ++ [⟨s, r⟩]⟩ r) :
    (history allows answers).Issues ⟨some q, tr⟩ s Q := by
  refine ⟨fun q' hq' => ?_, h⟩
  obtain rfl := Option.some.inj hq'
  exact hallow

/-- Phases that are the traces themselves. -/
def historyTracker (V : Server S T G ρ ε α) (allows : ρ → List (Exchange S) → S.Stmt → Prop)
    (answers : (s : S.Stmt) → S.Ans s → Prop)
    (hanswers : ∀ t g s r, V.possible t g s r → answers s r) :
    Tracker V (history allows answers) .idle .start :=
  Server.possibleTracker V _ _ _ fun t g _ s r hr => hanswers t g s r hr

theorem phaseAfter_history (h : History S ρ) (tr : List (Exchange S)) :
    Server.phaseAfter (history allows answers) h tr = ⟨h.request, h.trace ++ tr⟩ := by
  induction tr generalizing h with
  | nil => rw [List.append_nil, Server.phaseAfter_nil]
  | cons x tr ih =>
    have hrest := ih ⟨h.request, h.trace ++ [x]⟩
    rw [List.append_assoc, List.singleton_append] at hrest
    exact hrest

variable {hanswers : ∀ t g s r, V.possible t g s r → answers s r}

theorem historyTracker_phase {σ : Session S ρ ε α} (ht : w.session t = some σ) :
    (historyTracker V allows answers hanswers).phase w t = ⟨some σ.request, σ.trace⟩ := by
  have hphase : (historyTracker V allows answers hanswers).phase w t =
      Server.phaseAfter (history allows answers) (.start σ.request) σ.trace := by
    show Server.tracePhase _ _ _ w t = _
    rw [Server.tracePhase, ht]
    rfl
  rw [hphase, phaseAfter_history]
  rfl

variable {g : G}

theorem conforms_history (hanswers : ∀ t g s r, V.possible t g s r → answers s r)
    (hprog : ∀ q, (V.program q).Follows (history allows answers) ends (.start q))
    (hrun : Runs (World.Step V) guard (World.fresh g) w) :
    (historyTracker V allows answers hanswers).Conforms ends w :=
  (historyTracker V allows answers hanswers).follows hprog (fun _ => rfl) hrun

/-- Whatever a session is about to issue is allowed by what it has seen. -/
theorem allows_of_history (hanswers : ∀ t g s r, V.possible t g s r → answers s r)
    (hprog : ∀ q, (V.program q).Follows (history allows answers) ends (.start q))
    (hrun : Runs (World.Step V) guard (World.fresh g) w) {q : ρ} {s : S.Stmt}
    {k : S.Ans s → Prog S ε α} {tr : List (Exchange S)}
    (ht : w.session t = some ⟨q, .call s k, tr⟩) : allows q tr s := by
  have hallows := (conforms_history hanswers hprog hrun).allows ht
  rw [historyTracker_phase ht] at hallows
  exact hallows q rfl

/-- What a request comes to follows from what it has seen. -/
theorem ends_of_history (hanswers : ∀ t g s r, V.possible t g s r → answers s r)
    (hprog : ∀ q, (V.program q).Follows (history allows answers) ends (.start q))
    (hrun : Runs (World.Step V) guard (World.fresh g) w) {q : ρ} {p : Prog S ε α} {r : Except ε α}
    {tr : List (Exchange S)} (ht : w.session t = some ⟨q, p, tr⟩) (hp : p.outcome = some r) :
    ends ⟨some q, tr⟩ r := by
  have hends := (conforms_history hanswers hprog hrun).running ht
  rw [historyTracker_phase ht] at hends
  cases p with
  | ret a =>
    obtain rfl : .ok a = r := Option.some.inj hp
    exact hends
  | raise e =>
    obtain rfl : .error e = r := Option.some.inj hp
    exact hends
  | call s k => cases hp

/-- Of a program of which nothing is asked. -/
theorem follows_anything (p : Prog S ε α) (h : History S ρ) :
    p.Follows (history (fun _ _ _ => True) fun _ _ => True) (fun _ _ => True) h := by
  induction p generalizing h with
  | ret a => exact trivial
  | raise e => exact trivial
  | call s k ih => exact ⟨fun _ _ => trivial, fun r _ => ih r _⟩

/-- Every answer that a session has got was possible at a moment of its request. -/
theorem meanwhile_of_mem_trace {w₀ : World S T G ρ ε α} (ht₀ : w₀.session t = none)
    (hrun : Runs (World.Step V) guard w₀ w) {σ : Session S ρ ε α} (ht : w.session t = some σ)
    {x : Exchange S} (hx : x ∈ σ.trace) :
    Meanwhile V guard w₀ w t fun g => V.possible t g x.1 x.2 := by
  -- the phase records the answers themselves
  let K := historyTracker V (fun _ _ _ => True) (fun _ _ => True) fun _ _ _ _ _ => trivial
  have hconforms : K.Conforms (fun _ _ => True) w₀ := by
    intro u
    cases hu : w₀.session u with
    | none =>
      show Server.tracePhase _ _ _ w₀ u = _
      rw [Server.tracePhase, hu]
    | some σ' => exact follows_anything σ'.prog _
  have hobs : Observes V (history (fun _ _ _ => True) fun _ _ =>
    True) .idle .start t (fun h x => x ∈ h.trace)
      fun x g => V.possible t g x.1 x.2 := by
    refine ⟨fun _ => List.not_mem_nil, fun _ _ => List.not_mem_nil, ?_⟩
    intro g h s r y hr hy
    -- an answer is observed by the statement that gets it
    rcases List.mem_append.1 hy with hold | hnew
    · exact .inl hold
    · obtain rfl := List.mem_singleton.1 hnew
      exact .inr (.inl hr)
  apply meanwhile_of_seen hobs (fun q => follows_anything (V.program q) _) hconforms ht₀ hrun
  show x ∈ (K.phase w t).trace
  rw [historyTracker_phase ht]
  exact hx

end Histories

end BookingPlatform.Library
