import BookingPlatform.Library.Server

/-!
# Sessions amid Interference

The execution of one session while other sessions move, as that session sees it: before each of its
statements, and after the last one, the shared state changes as a relation `rely` allows. What a
program ensures amid such interference is computed along the program.

## Main definitions

- `Server.Amid`: the executions of a program amid interference.
- `Server.Ensures`: what holds of all of them.

## Main results

- `Server.ensures_bind`: composed programs, one part at a time.
- `Server.amid_of_run`: the part of a session in an interleaved run.
-/

namespace BookingPlatform.Library

variable {S : Signature} {T G ρ ε α β γ : Type}

namespace Server

/-- Amid interference as `rely` allows it, session `t` takes the program from state `g` to the
result `r` in state `g'`. -/
def Amid (V : Server S T G ρ ε α) (rely : G → G → Prop) (t : T) :
    Prog S ε β → G → Except ε β → G → Prop
  | .ret a, g, r, g' => r = .ok a ∧ rely g g'
  | .raise e, g, r, g' => r = .error e ∧ rely g g'
  | .call s k, g, r, g' =>
    ∃ g₁ x, rely g g₁ ∧ V.possible t g₁ s x ∧ V.Amid rely t (k x) (V.effect t g₁ s x) r g'

/-- Every execution of the program amid interference ends as `post` says. -/
def Ensures (V : Server S T G ρ ε α) (rely : G → G → Prop) (t : T) (p : Prog S ε β) (g : G)
    (post : Except ε β → G → Prop) : Prop :=
  ∀ r g', V.Amid rely t p g r g' → post r g'

variable {V : Server S T G ρ ε α} {rely : G → G → Prop} {t : T} {g g' : G}

/-! ## Rules -/

theorem ensures_ret {a : β} {post : Except ε β → G → Prop} (h : ∀ g', rely g g' → post (.ok a) g') :
    V.Ensures rely t (.ret a) g post := by
  rintro r g' ⟨rfl, hrely⟩
  exact h g' hrely

theorem ensures_raise {e : ε} {post : Except ε β → G → Prop}
    (h : ∀ g', rely g g' → post (.error e) g') : V.Ensures rely t (.raise e) g post := by
  rintro r g' ⟨rfl, hrely⟩
  exact h g' hrely

theorem ensures_call {s : S.Stmt} {k : S.Ans s → Prog S ε β} {post : Except ε β → G → Prop}
    (h : ∀ g₁ x, rely g g₁ → V.possible t g₁ s x →
      V.Ensures rely t (k x) (V.effect t g₁ s x) post) :
    V.Ensures rely t (.call s k) g post := by
  rintro r g' ⟨g₁, x, hrely, hx, hk⟩
  exact h g₁ x hrely hx r g' hk

theorem Ensures.mono {p : Prog S ε β} {post post' : Except ε β → G → Prop}
    (h : V.Ensures rely t p g post) (hle : ∀ r g', post r g' → post' r g') :
    V.Ensures rely t p g post' :=
  fun r g' hp => hle r g' (h r g' hp)

/-- An execution of a composed program is one of its first part, and if that returns, one of the
rest. -/
theorem amid_bind_cases (hrefl : ∀ g, rely g g) {p : Prog S ε β} {f : β → Prog S ε γ}
    {r : Except ε γ} (h : V.Amid rely t (p >>= f) g r g') :
    (∃ e, r = .error e ∧ V.Amid rely t p g (.error e) g') ∨
      ∃ b g₁, V.Amid rely t p g (.ok b) g₁ ∧ V.Amid rely t (f b) g₁ r g' := by
  induction p generalizing g with
  | ret a => exact .inr ⟨a, g, ⟨rfl, hrefl g⟩, h⟩
  | raise e =>
    obtain ⟨rfl, hrely⟩ := h
    exact .inl ⟨e, rfl, rfl, hrely⟩
  | call s k ih =>
    obtain ⟨g₁, x, hrely, hx, hk⟩ := h
    rcases ih x hk with ⟨e, hr, he⟩ | ⟨b, g₂, hb, hf⟩
    · exact .inl ⟨e, hr, g₁, x, hrely, hx, he⟩
    · exact .inr ⟨b, g₂, ⟨g₁, x, hrely, hx, hb⟩, hf⟩

theorem ensures_bind (hrefl : ∀ g, rely g g) {p : Prog S ε β} {f : β → Prog S ε γ}
    {mid : Except ε β → G → Prop} {post : Except ε γ → G → Prop} (hp : V.Ensures rely t p g mid)
    (herror : ∀ e g₁, mid (.error e) g₁ → post (.error e) g₁)
    (hok : ∀ b g₁, mid (.ok b) g₁ → V.Ensures rely t (f b) g₁ post) :
    V.Ensures rely t (p >>= f) g post := by
  intro r g' h
  rcases amid_bind_cases hrefl h with ⟨e, rfl, he⟩ | ⟨b, g₁, hb, hf⟩
  · exact herror e g' (hp _ _ he)
  · exact hok b g₁ (hp _ _ hb) r g' hf

/-! ## Interleaved runs -/

/-- Interference before a program belongs to its execution. -/
theorem Amid.head (htrans : ∀ g g₁ g₂, rely g g₁ → rely g₁ g₂ → rely g g₂) {p : Prog S ε β} {g₁ : G}
    {r : Except ε β} (hrely : rely g g₁) (h : V.Amid rely t p g₁ r g') :
    V.Amid rely t p g r g' := by
  cases p with
  | ret a => exact ⟨h.1, htrans _ _ _ hrely h.2⟩
  | raise e => exact ⟨h.1, htrans _ _ _ hrely h.2⟩
  | call s k =>
    obtain ⟨g₂, x, hrely₂, hx, hk⟩ := h
    exact ⟨g₂, x, htrans _ _ _ hrely hrely₂, hx, hk⟩

/-- The execution of a composed program, one part after the other. -/
theorem Amid.bind (htrans : ∀ g g₁ g₂, rely g g₁ → rely g₁ g₂ → rely g g₂) {p : Prog S ε β}
    {f : β → Prog S ε γ} {b : β} {g₁ : G} {r : Except ε γ} (hp : V.Amid rely t p g (.ok b) g₁)
    (hf : V.Amid rely t (f b) g₁ r g') : V.Amid rely t (p >>= f) g r g' := by
  induction p generalizing g with
  | ret a =>
    obtain ⟨hb, hrely⟩ := hp
    cases hb
    exact hf.head htrans hrely
  | raise e => cases hp.1
  | call s k ih =>
    obtain ⟨g₂, x, hrely, hx, hk⟩ := hp
    exact ⟨g₂, x, hrely, hx, ih x hk⟩

/-- A step beside session `t`: it is a statement of `t`, or interference as `rely` allows it, and
`t` does not die. -/
def StepBeside [DecidableEq T] (V : Server S T G ρ ε α) (rely : G → G → Prop) (t : T)
    (w w' : World S T G ρ ε α) : Prop :=
  ∃ l, World.Step V w l w' ∧ l ≠ .crash t ∧ ((∀ x, l ≠ .call t x) → rely w.shared w'.shared)

/-- The part of session `t` in an interleaved run. -/
theorem amid_of_run [DecidableEq T] {w w' : World S T G ρ ε α} {q q' : ρ} {p p' : Prog S ε α}
    {tr tr' : List (Exchange S)} {r : Except ε α} (hrefl : ∀ g, rely g g)
    (htrans : ∀ g g₁ g₂, rely g g₁ → rely g₁ g₂ → rely g g₂)
    (hrun : Relation.ReflTransGen (StepBeside V rely t) w w') (hat : w.session t = some ⟨q, p, tr⟩)
    (hat' : w'.session t = some ⟨q', p', tr'⟩) (hout : p'.outcome = some r) :
    V.Amid rely t p w.shared r w'.shared := by
  induction hrun using Relation.ReflTransGen.head_induction_on generalizing p tr with
  | refl =>
    rw [hat] at hat'
    cases hat'
    cases p' with
    | ret a =>
      cases hout
      exact ⟨rfl, hrefl _⟩
    | raise e =>
      cases hout
      exact ⟨rfl, hrefl _⟩
    | call s k => cases hout
  | @head w w₁ hstep _ ih =>
    obtain ⟨l, hs, hlives, hquiet⟩ := hstep
    cases hs with
    | @start u q₁ hidle =>
      have hne : t ≠ u := by
        rintro rfl
        rw [hidle] at hat
        cases hat
      have hstill : (w.start V u q₁).session t = some ⟨q, p, tr⟩ := by
        rw [World.start_session, if_neg hne]
        exact hat
      exact (ih hstill).head htrans (hquiet fun _ => nofun)
    | @call u q₁ tr₁ s k x hatu hx =>
      by_cases hu : u = t
      · -- a statement of the session itself
        subst hu
        rw [hat] at hatu
        cases hatu
        have hnext : (w.answered V u q (k x) tr s x).session u = some ⟨q, k x, tr ++ [⟨s, x⟩]⟩ := by
          rw [World.answered_session, if_pos rfl]
        exact ⟨w.shared, x, hrefl _, hx, ih hnext⟩
      · have hother : ∀ y, (Label.call u ⟨s, x⟩ : Label S T ρ) ≠ .call t y := by
          rintro y ⟨⟩
          exact hu rfl
        have hstill : (w.answered V u q₁ (k x) tr₁ s x).session t = some ⟨q, p, tr⟩ := by
          rw [World.answered_session, if_neg (Ne.symm hu)]
          exact hat
        exact (ih hstill).head htrans (hquiet hother)
    | @crash u σ hatu hrun =>
      have hne : t ≠ u := by
        rintro rfl
        exact hlives rfl
      have hstill : (w.crashed V u).session t = some ⟨q, p, tr⟩ := by
        rw [World.crashed_session, if_neg hne]
        exact hat
      exact (ih hstill).head htrans (hquiet fun _ => nofun)
    | @env g₁ hg =>
      have hstill : ({ w with shared := g₁ } : World S T G ρ ε α).session t = some ⟨q, p, tr⟩ := hat
      exact (ih hstill).head htrans (hquiet fun _ => nofun)

end Server

end BookingPlatform.Library
