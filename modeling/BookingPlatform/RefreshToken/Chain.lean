import BookingPlatform.Library.Counting
import BookingPlatform.RefreshToken.TheftResponse

/-!
# Families are Chains

Any number of refreshes, replays, logouts and new sessions, interleaved statement by
statement. A family has one token that can still be used, or one request that is about to
insert it, and never both.

## Main definitions

- `ChainInv`: what the tokens of a family and the requests under way have to do with each
  other.
- `LinearFamilies`: one usable token a family, and one claim a token.

## Main results

- `families_linear`: both hold in every reachable world.
-/

namespace BookingPlatform

open Library

variable {T : Type} {g g' : TokenDb} {phase : T → Rotation} {ph ph' : Rotation} {t : T}

/-- The number of unused tokens of a family. -/
def TokenDb.unused (g : TokenDb) (familyId : Uuid) : ℕ :=
  g.tokens.countP fun r => r.familyId = familyId ∧ r.usedAt = none

/-- A request that has consumed a token of the family and not inserted the successor. -/
def Rotation.Holds (familyId : Uuid) : Rotation → Prop
  | claimed r => r.familyId = familyId
  | _ => False

/-- A family has one unused token at most, none while a request holds the family, and at
most one request holds it. -/
structure ChainInv (g : TokenDb) (phase : T → Rotation) : Prop where
  ids : (g.tokens.map (·.id)).Nodup
  known : ∀ t r, (phase t).record = some r → ∃ r' ∈ g.tokens, r'.id = r.id ∧
    r'.familyId = r.familyId
  single : ∀ r ∈ g.tokens, ∀ r' ∈ g.tokens, r.usedAt = none → r'.usedAt = none →
    r.familyId = r'.familyId → r.id = r'.id
  spent : ∀ t familyId, (phase t).Holds familyId → ∀ r ∈ g.tokens, r.familyId = familyId →
    r.usedAt ≠ none
  lone : ∀ t u familyId, (phase t).Holds familyId → (phase u).Holds familyId → t = u

/-- A family held by a request has a token. -/
theorem ChainInv.family_known (h : ChainInv g phase) {familyId : Uuid}
    (hholds : (phase t).Holds familyId) : ∃ r ∈ g.tokens, r.familyId = familyId := by
  have hknown := h.known t
  cases hph : phase t with
  | claimed r =>
    rw [hph] at hknown hholds
    obtain ⟨r', hr', -, hfamily⟩ := hknown r rfl
    exact ⟨r', hr', hfamily.trans hholds⟩
  | _ =>
    rw [hph] at hholds
    exact hholds.elim

section Step

variable [DecidableEq T]

/-- A request moves on and rows are updated, without a claim. -/
theorem ChainInv.update (h : ChainInv g phase) {f : RefreshToken → RefreshToken} (hf : RowUpdate f)
    (htokens : g'.tokens = g.tokens.map f)
    (hknown : ∀ r, ph'.record = some r → ∃ r' ∈ g.tokens, r'.id = r.id ∧ r'.familyId = r.familyId)
    (hholds : ∀ familyId, ph'.Holds familyId →
      (∀ r ∈ g'.tokens, r.familyId = familyId → r.usedAt ≠ none) ∧
      ∀ u, u ≠ t → ¬(phase u).Holds familyId) :
    ChainInv g' (Function.update phase t ph') where
  ids := by
    rw [htokens, List.map_map]
    have hid : (fun r : RefreshToken => r.id) ∘ f = fun r => r.id := funext hf.id
    rw [hid]
    exact h.ids
  known u r hu := by
    have hold : ∃ r' ∈ g.tokens, r'.id = r.id ∧ r'.familyId = r.familyId := by
      by_cases hut : u = t
      · subst hut
        rw [Function.update_self] at hu
        exact hknown r hu
      · rw [Function.update_of_ne hut] at hu
        exact h.known u r hu
    obtain ⟨r', hr', hid, hfamily⟩ := hold
    exact ⟨f r', by rw [htokens]; exact List.mem_map_of_mem hr', (hf.id r').trans hid,
      (hf.familyId r').trans hfamily⟩
  single r hr r' hr' hunused hunused' hfamily := by
    rw [htokens] at hr hr'
    obtain ⟨r₁, hr₁, rfl⟩ := List.mem_map.1 hr
    obtain ⟨r₂, hr₂, rfl⟩ := List.mem_map.1 hr'
    -- an update makes no used token unused
    have hback : ∀ r, (f r).usedAt = none → r.usedAt = none := fun r hnone =>
      Decidable.byContradiction fun hused => hf.used r hused hnone
    rw [hf.familyId, hf.familyId] at hfamily
    rw [hf.id, hf.id]
    exact h.single r₁ hr₁ r₂ hr₂ (hback r₁ hunused) (hback r₂ hunused') hfamily
  spent u familyId hu r hr hfamily := by
    by_cases hut : u = t
    · subst hut
      rw [Function.update_self] at hu
      exact (hholds familyId hu).1 r hr hfamily
    · rw [Function.update_of_ne hut] at hu
      rw [htokens] at hr
      obtain ⟨r₀, hr₀, rfl⟩ := List.mem_map.1 hr
      exact hf.used r₀ (h.spent u familyId hu r₀ hr₀ ((hf.familyId r₀).symm.trans hfamily))
  lone u v familyId hu hv := by
    by_cases hut : u = t
    · by_cases hvt : v = t
      · rw [hut, hvt]
      · subst hut
        rw [Function.update_self] at hu
        rw [Function.update_of_ne hvt] at hv
        exact absurd hv ((hholds familyId hu).2 v hvt)
    · by_cases hvt : v = t
      · subst hvt
        rw [Function.update_self] at hv
        rw [Function.update_of_ne hut] at hu
        exact absurd hu ((hholds familyId hv).2 u hut)
      · rw [Function.update_of_ne hut] at hu
        rw [Function.update_of_ne hvt] at hv
        exact h.lone u v familyId hu hv

/-- A request moves on without a write or a claim. -/
theorem ChainInv.move (h : ChainInv g phase)
    (hknown : ∀ r, ph'.record = some r → ∃ r' ∈ g.tokens, r'.id = r.id ∧ r'.familyId = r.familyId)
    (hholds : ∀ familyId, ¬ph'.Holds familyId) : ChainInv g (Function.update phase t ph') := by
  have hid : RowUpdate id := ⟨fun _ => rfl, fun _ => rfl, fun _ => id, fun _ => id⟩
  exact h.update hid (List.map_id _).symm hknown fun familyId hu => absurd hu (hholds familyId)

/-- A request inserts a token into a family without an unused one, and is done. -/
theorem ChainInv.append (h : ChainInv g phase) {v : RefreshToken}
    (hnew : ∀ r ∈ g.tokens, r.id ≠ v.id) (htokens : g'.tokens = g.tokens ++ [v])
    (hused : ∀ r ∈ g.tokens, r.familyId = v.familyId → r.usedAt ≠ none)
    (hfree : ∀ u, u ≠ t → ¬(phase u).Holds v.familyId) :
    ChainInv g' (Function.update phase t .finished) where
  ids := by
    rw [htokens, List.map_append, List.map_singleton]
    refine List.nodup_append.2 ⟨h.ids, List.nodup_singleton _, fun i hi j hj => ?_⟩
    obtain ⟨r, hr, rfl⟩ := List.mem_map.1 hi
    rw [List.mem_singleton.1 hj]
    exact hnew r hr
  known u r hu := by
    by_cases hut : u = t
    · subst hut
      rw [Function.update_self] at hu
      cases hu
    · rw [Function.update_of_ne hut] at hu
      obtain ⟨r', hr', hsame⟩ := h.known u r hu
      exact ⟨r', by rw [htokens]; exact List.mem_append_left _ hr', hsame⟩
  -- the family had no unused token before
  single r hr r' hr' hunused hunused' hfamily := by
    rw [htokens, List.mem_append, List.mem_singleton] at hr hr'
    rcases hr with hr | rfl
    · rcases hr' with hr' | rfl
      · exact h.single r hr r' hr' hunused hunused' hfamily
      · exact absurd hunused (hused r hr hfamily)
    · rcases hr' with hr' | rfl
      · exact absurd hunused' (hused r' hr' hfamily.symm)
      · rfl
  spent u familyId hu r hr hfamily := by
    by_cases hut : u = t
    · subst hut
      rw [Function.update_self] at hu
      exact hu.elim
    · rw [Function.update_of_ne hut] at hu
      rw [htokens, List.mem_append, List.mem_singleton] at hr
      rcases hr with hr | rfl
      · exact h.spent u familyId hu r hr hfamily
      · exact absurd (hfamily ▸ hu) (hfree u hut)
  lone u v' familyId hu hv := by
    have hkeep : ∀ {w}, (Function.update phase t Rotation.finished w).Holds familyId →
        (phase w).Holds familyId := by
      intro w hw
      by_cases hwt : w = t
      · subst hwt
        rw [Function.update_self] at hw
        exact hw.elim
      · rwa [Function.update_of_ne hwt] at hw
    exact h.lone u v' familyId (hkeep hu) (hkeep hv)

/-- Whatever a request does, families stay chains. -/
theorem ChainInv.rotates (h : ChainInv g phase) (hr : Rotates g (phase t) g' ph') :
    ChainInv g' (Function.update phase t ph') := by
  have hrecord := h.known t
  generalize hph : phase t = ph at hr
  have hread : ∀ r ∈ g.tokens, ∀ r', some r = some r' →
      ∃ r₀ ∈ g.tokens, r₀.id = r'.id ∧ r₀.familyId = r'.familyId := by
    rintro r hr r' ⟨⟩
    exact ⟨r, hr, rfl, rfl⟩
  cases hr with
  | stay ph =>
    rw [← hph, Function.update_eq_self]
    exact h
  | checks r hr hrevoked => exact h.move (hread r hr) fun _ => id
  | refuses => exact h.move nofun fun _ => id
  | closes r hr => exact h.move (hread r hr) fun _ => id
  | claims r usedAt hunused =>
    rw [hph] at hrecord
    have hknown := hrecord r rfl
    obtain ⟨r', hr', hid, hunused'⟩ := hunused
    -- the consumed row is the one of the record, and the only unused one of its family
    have hfamily : r'.familyId = r.familyId := by
      obtain ⟨r₀, hr₀, hid₀, hfamily₀⟩ := hknown
      rw [List.inj_on_of_nodup_map h.ids hr' hr₀ (hid.trans hid₀.symm), hfamily₀]
    refine h.update (rowUpdate_useRow r.id usedAt) rfl (by rintro r₁ ⟨⟩; exact hknown) ?_
    rintro familyId rfl
    refine ⟨fun r₁ hr₁ hfamily₁ hnone => ?_, fun u _ hu => ?_⟩
    · obtain ⟨r₀, hr₀, rfl⟩ := List.mem_map.1 hr₁
      unfold TokenDb.useRow at hnone hfamily₁
      split at hnone
      · cases hnone
      · rename_i hnot
        rw [if_neg hnot] at hfamily₁
        have hsame : r₀.id = r'.id :=
          h.single r₀ hr₀ r' hr' hnone hunused' (hfamily₁.trans hfamily.symm)
        exact hnot ⟨hsame.trans hid, hnone⟩
    · exact h.spent u _ hu r' hr' hfamily hunused'
  | loses r usedAt hused =>
    rw [hph] at hrecord
    have hknown := hrecord r rfl
    exact h.update (rowUpdate_useRow r.id usedAt) rfl (by rintro r₁ ⟨⟩; exact hknown)
      fun _ hu => hu.elim
  | burns ph r hr revokedAt =>
    exact h.update (rowUpdate_revokeRow r.familyId revokedAt) rfl nofun fun _ hu => hu.elim
  | opens v hnew hunused hfamily =>
    refine h.append hnew rfl (fun r hr hr' => absurd hr' (hfamily r hr)) fun u _ hu => ?_
    obtain ⟨r, hr, hr'⟩ := h.family_known hu
    exact hfamily r hr hr'
  | succeeds r v hnew hunused hfamily =>
    have hmine : (phase t).Holds v.familyId := by
      rw [hph]
      exact hfamily.symm
    exact h.append hnew rfl (h.spent t _ hmine) fun u hut hu => hut (h.lone u t _ hu hmine)

end Step

/-! ## Counting -/

/-- A family has one unused token or one request that holds it. -/
theorem ChainInv.unused_add_length (h : ChainInv g phase) {familyId : Uuid} {ts : List T}
    (hnd : ts.Nodup) (hts : ∀ t ∈ ts, (phase t).Holds familyId) :
    g.unused familyId + ts.length ≤ 1 := by
  cases ts with
  -- nobody holds the family: two unused tokens have one id
  | nil =>
    refine countP_le_one h.ids fun r hr r' hr' hmatch hmatch' => ?_
    obtain ⟨hfamily, hunused⟩ := of_decide_eq_true hmatch
    obtain ⟨hfamily', hunused'⟩ := of_decide_eq_true hmatch'
    exact h.single r hr r' hr' hunused hunused' (hfamily.trans hfamily'.symm)
  | cons t ts =>
    have hholds : (phase t).Holds familyId := hts t List.mem_cons_self
    -- while a request holds the family, all its tokens are used
    have hnone : g.unused familyId = 0 := by
      rw [TokenDb.unused, List.countP_eq_zero]
      intro r hr hmatch
      obtain ⟨hfamily, hunused⟩ := of_decide_eq_true hmatch
      exact h.spent t familyId hholds r hr hfamily hunused
    cases ts with
    | nil => simp [hnone]
    | cons u ts =>
      have heq : t = u :=
        h.lone t u familyId hholds (hts u (List.mem_cons_of_mem _ List.mem_cons_self))
      subst heq
      simp at hnd

/-! ## Consumed tokens -/

/-- The token is in the table, and is used. -/
structure TokenDb.Consumed (g : TokenDb) (id : Uuid) : Prop where
  member : ∃ r ∈ g.tokens, r.id = id
  used : ∀ r ∈ g.tokens, r.id = id → r.usedAt ≠ none

theorem TokenDb.Consumed.map {id : Uuid} (h : g.Consumed id) {f : RefreshToken → RefreshToken}
    (hf : RowUpdate f) (htokens : g'.tokens = g.tokens.map f) : g'.Consumed id where
  member := by
    obtain ⟨r, hr, hid⟩ := h.member
    exact ⟨f r, by rw [htokens]; exact List.mem_map_of_mem hr, (hf.id r).trans hid⟩
  used r hr hid := by
    rw [htokens] at hr
    obtain ⟨r₀, hr₀, rfl⟩ := List.mem_map.1 hr
    exact hf.used r₀ (h.used r₀ hr₀ ((hf.id r₀).symm.trans hid))

theorem TokenDb.Consumed.append {id : Uuid} (h : g.Consumed id) {v : RefreshToken}
    (hnew : ∀ r ∈ g.tokens, r.id ≠ v.id) (htokens : g'.tokens = g.tokens ++ [v]) :
    g'.Consumed id where
  member := by
    obtain ⟨r, hr, hid⟩ := h.member
    exact ⟨r, by rw [htokens]; exact List.mem_append_left _ hr, hid⟩
  used r hr hid := by
    rw [htokens, List.mem_append, List.mem_singleton] at hr
    rcases hr with hr | rfl
    · exact h.used r hr hid
    · obtain ⟨r', hr', hid'⟩ := h.member
      exact absurd (hid'.trans hid.symm) (hnew r' hr')

/-- A consumed token stays consumed. -/
theorem TokenDb.Consumed.rotates {id : Uuid} (h : g.Consumed id) (hr : Rotates g ph g' ph') :
    g'.Consumed id := by
  cases hr with
  | stay | checks | refuses | closes => exact h
  | claims r usedAt => exact h.map (rowUpdate_useRow r.id usedAt) rfl
  | loses r usedAt => exact h.map (rowUpdate_useRow r.id usedAt) rfl
  | burns ph r hr revokedAt => exact h.map (rowUpdate_revokeRow r.familyId revokedAt) rfl
  | opens v hnew => exact h.append hnew rfl
  | succeeds r v hnew => exact h.append hnew rfl

/-! ## Runs -/

section Runs

variable [DecidableEq T]

/-- A family has at most one unused token, or request that has claimed one and not inserted
the successor, and a token that was claimed is not claimed again. -/
structure LinearFamilies (rt : TokenRuntime) (w : TokenWorld T) : Prop where
  chain : ∀ familyId (ts : List T), ts.Nodup → (∀ t ∈ ts, (rotationOf w t).Holds familyId) →
    w.shared.unused familyId + ts.length ≤ 1
  once : ∀ t id usedAt n w',
    World.Step (tokenServer rt) w (.call t ⟨.markUsedIfUnused id usedAt, .ok n⟩) w' → 0 < n →
    n = 1 ∧ ∀ w₁, Runs (World.Step (tokenServer rt)) anyStep w' w₁ → ∀ u usedAt' n' w₂,
      World.Step (tokenServer rt) w₁ (.call u ⟨.markUsedIfUnused id usedAt', .ok n'⟩) w₂ → n' = 0

/-- The course of all sessions and the shape of the families. -/
structure ChainsInv (rt : TokenRuntime) (w : TokenWorld T) : Prop where
  conforms : (rotationTracker rt).Conforms ends w
  tokens : ChainInv w.shared (rotationOf w)

variable {rt : TokenRuntime} {w w' : TokenWorld T}

/-- What one step does, to the table and to how far the sessions have come. -/
theorem rotates_step (hconforms : (rotationTracker rt).Conforms ends w)
    {l : Label TokenSql T SessionRequest} (hs : World.Step (tokenServer rt) w l w') :
    (∃ t ph', Rotates w.shared (rotationOf w t) w'.shared ph' ∧
      rotationOf w' = Function.update (rotationOf w) t ph') ∨
    w'.shared.tokens = w.shared.tokens ∧ (rotationOf w' = rotationOf w ∨
      ∃ t ph', ph'.record = none ∧ rotationOf w' = Function.update (rotationOf w) t ph') := by
  cases hs with
  | @start t q hidle =>
    have hself := (rotationTracker rt).start_eq w t q hidle (hconforms.phase_idle hidle)
    exact .inr ⟨rfl, .inr ⟨t, Rotation.start q, by cases q <;> rfl,
      Function.eq_update_iff.2 ⟨hself, fun u hu => (rotationTracker rt).start_frame w t q u hu⟩⟩⟩
  | @call t q tr s k x hat hx =>
    have hself := (rotationTracker rt).call_eq w t q s k tr x hat hx
    exact .inl ⟨t, _, .of_statement (hconforms.allows hat) hx,
      Function.eq_update_iff.2
        ⟨hself, fun u hu => (rotationTracker rt).call_frame w t q (k x) tr s x u hu⟩⟩
  -- the tokens stay when a session dies
  | @crash t σ hat hrun =>
    have hself := (rotationTracker rt).crash_eq w t
    exact .inr ⟨rfl, .inr ⟨t, .finished, rfl,
      Function.eq_update_iff.2 ⟨hself, fun u hu => (rotationTracker rt).crash_frame w t u hu⟩⟩⟩
  | @env g hg =>
    obtain ⟨role, rfl⟩ := hg
    exact .inr ⟨rfl, .inl rfl⟩

omit [DecidableEq T] in
/-- The shape of the families is a matter of the tokens only. -/
theorem ChainInv.of_tokens (h : ChainInv g phase) (htokens : g'.tokens = g.tokens) :
    ChainInv g' phase := by
  obtain ⟨hids, hknown, hsingle, hspent, hlone⟩ := h
  rw [← htokens] at hids
  exact ⟨hids, by rw [htokens]; exact hknown, by rw [htokens]; exact hsingle,
    by rw [htokens]; exact hspent, hlone⟩

theorem ChainsInv.step (h : ChainsInv rt w) {l : Label TokenSql T SessionRequest}
    (hs : World.Step (tokenServer rt) w l w') : ChainsInv rt w' := by
  refine ⟨h.conforms.step (follows_rotation rt) hs, ?_⟩
  rcases rotates_step h.conforms hs with ⟨t, ph', hr, hmoved⟩ | ⟨htokens,
    hsame | ⟨t, ph', hrecord, hmoved⟩⟩
  · rw [hmoved]
    exact h.tokens.rotates hr
  · rw [hsame]
    exact h.tokens.of_tokens htokens
  · -- a session that starts or dies holds no family
    have hholds : ∀ familyId, ¬ph'.Holds familyId := by
      intro familyId hu
      cases ph' with
      | claimed r => cases hrecord
      | _ => exact hu
    rw [hmoved]
    exact (h.tokens.move (fun r hr => by rw [hrecord] at hr; cases hr) hholds).of_tokens htokens

/-- A token that is consumed stays so in every run. -/
theorem ChainsInv.consumed_run (h : ChainsInv rt w) {id : Uuid} (hid : w.shared.Consumed id)
    (hrun : Runs (World.Step (tokenServer rt)) anyStep w w') :
    ChainsInv rt w' ∧ w'.shared.Consumed id := by
  refine hrun.invariant (I := fun w => ChainsInv rt w ∧ w.shared.Consumed id) ?_ ⟨h, hid⟩
  rintro w l w' ⟨hw, hconsumed⟩ - hs
  refine ⟨hw.step hs, ?_⟩
  rcases rotates_step hw.conforms hs with ⟨t, ph', hr, -⟩ | ⟨htokens, -⟩
  · exact hconsumed.rotates hr
  · obtain ⟨hmember, hused⟩ := hconsumed
    exact ⟨htokens ▸ hmember, htokens ▸ hused⟩

/-- A table before any request: the ids of its tokens differ, and no family has two unused
ones. -/
structure TokenDb.Linear (g : TokenDb) : Prop where
  ids : (g.tokens.map (·.id)).Nodup
  single : ∀ familyId, g.unused familyId ≤ 1

omit [DecidableEq T] in
/-- Two unused tokens of a family make two. -/
theorem TokenDb.Linear.eq_of_unused (h : g.Linear) {r r' : RefreshToken} (hr : r ∈ g.tokens)
    (hr' : r' ∈ g.tokens) (hunused : r.usedAt = none) (hunused' : r'.usedAt = none)
    (hfamily : r.familyId = r'.familyId) : r = r' := by
  have hsingle := h.single r'.familyId
  rw [TokenDb.unused, List.countP_eq_length_filter] at hsingle
  -- both are among the unused tokens of the family, of which there is one at most
  have hmem : ∀ s ∈ g.tokens, s.familyId = r'.familyId → s.usedAt = none →
      s ∈ g.tokens.filter (fun r => r.familyId = r'.familyId ∧ r.usedAt = none) := fun s hs hf hu =>
    List.mem_filter.2 ⟨hs, decide_eq_true ⟨hf, hu⟩⟩
  have hleft := hmem r hr hfamily hunused
  have hright := hmem r' hr' rfl hunused'
  match hl : g.tokens.filter (fun r => r.familyId = r'.familyId ∧ r.usedAt = none) with
  | [] =>
    rw [hl] at hleft
    cases hleft
  | [s] =>
    rw [hl, List.mem_singleton] at hleft hright
    exact hleft.trans hright.symm
  | s :: s' :: l =>
    rw [hl] at hsingle
    simp at hsingle

/-- In every reachable world the families are chains. -/
theorem families_linear (rt : TokenRuntime) {g₀ : TokenDb} (h₀ : g₀.Linear)
    (hrun : Runs (World.Step (tokenServer rt)) anyStep (World.fresh g₀) w) :
    LinearFamilies rt w := by
  have hfinished : ∀ t : T, rotationOf (World.fresh g₀) t = .finished := fun t => by
    simp [rotationOf, Server.tracePhase]
  -- in the beginning nobody refreshes
  have hfresh : ChainsInv rt (World.fresh g₀ : TokenWorld T) := by
    refine ⟨hfinished, h₀.ids, fun t r hr => ?_, ?_, fun t familyId hu => ?_,
      fun t u familyId hu => ?_⟩
    · rw [hfinished] at hr
      cases hr
    · intro r hr r' hr' hunused hunused' hfamily
      exact congrArg _ (h₀.eq_of_unused hr hr' hunused hunused' hfamily)
    · rw [hfinished] at hu
      exact hu.elim
    · rw [hfinished] at hu
      exact hu.elim
  have h : ChainsInv rt w :=
    hrun.invariant (I := ChainsInv rt) (fun _ _ _ h _ hs => h.step hs) hfresh
  refine ⟨fun familyId ts hnd hts => h.tokens.unused_add_length hnd hts, ?_⟩
  intro t id usedAt n w' hs hn
  have hn' : n = w.shared.tokens.countP fun r => r.id = id ∧ r.usedAt = none := by
    cases hs with
    | call _ _ hx => exact hx
  -- the token that is claimed has been used since
  have hconsumed : w'.shared.Consumed id := by
    have hg : w'.shared =
        { w.shared with tokens := w.shared.tokens.map (TokenDb.useRow id usedAt) } := by
      cases hs with
      | call _ _ hx => rfl
    have hf := rowUpdate_useRow id usedAt
    rw [hn'] at hn
    obtain ⟨r, hr, hmatch⟩ := List.countP_pos_iff.1 hn
    rw [hg]
    refine ⟨⟨_, List.mem_map_of_mem hr, (hf.id r).trans (of_decide_eq_true hmatch).1⟩, ?_⟩
    intro r₁ hr₁ hid₁ hnone
    obtain ⟨r₀, hr₀, rfl⟩ := List.mem_map.1 hr₁
    rw [hf.id] at hid₁
    unfold TokenDb.useRow at hnone
    split at hnone
    · cases hnone
    · rename_i hnot
      exact hnot ⟨hid₁, hnone⟩
  refine ⟨?_, fun w₁ hrun₁ u usedAt' n' w₂ hs₂ => ?_⟩
  · -- ids are different: no more than one row is updated
    have hone : n ≤ 1 := by
      rw [hn']
      refine countP_le_one h.tokens.ids fun r _ r' _ hmatch hmatch' => ?_
      exact (of_decide_eq_true hmatch).1.trans (of_decide_eq_true hmatch').1.symm
    exact Nat.le_antisymm hone hn
  · -- a later claim of the token finds no unused row
    obtain ⟨-, hstill⟩ := (h.step hs).consumed_run hconsumed hrun₁
    have hn₂ : n' = w₁.shared.tokens.countP fun r => r.id = id ∧ r.usedAt = none := by
      cases hs₂ with
      | call _ _ hx => exact hx
    rw [hn₂, List.countP_eq_zero]
    intro r hr hmatch
    obtain ⟨hid, hunused⟩ := of_decide_eq_true hmatch
    exact hstill.used r hr hid hunused

theorem sampleTokenDb_linear : sampleTokenDb.Linear where
  ids := by decide
  single familyId := by
    rw [TokenDb.unused]
    exact Nat.le_trans List.countP_le_length (by decide)

/-- One family, with one unused token after its first was refreshed and presented again. -/
theorem families_linear_reuseAfterRefresh :
    ∃ w : TokenWorld Bool, w.shared.unused 1 = 1 ∧ w.shared.tokens.length = 2 ∧
      LinearFamilies sampleTokenRuntime w := by
  obtain ⟨w, hrun, hw⟩ := (tokenResponder sampleTokenRuntime).exists_anyRun
    (World.fresh sampleTokenDb) reuseAfterRefresh
    (fun w => w.shared.unused 1 = 1 ∧ w.shared.tokens.length = 2) (by decide +kernel)
  obtain ⟨hunused, hlength⟩ := of_decide_eq_true hw
  exact ⟨w, hunused, hlength, families_linear _ sampleTokenDb_linear hrun⟩

end Runs

end BookingPlatform
