import BookingPlatform.Library.References

/-!
# Referential Integrity of Concurrent Transactions

Programs that keep to the discipline of their dependencies, run in transactions over one store that
are interleaved in any order. What a row needs stays held for good, since the rows that provide it
are not removed and keep their keys.

## Main definitions

- `Dependencies.Intact`: the invariant of the shared store.

## Main results

- `Dependencies.Intact.call`: a statement that the discipline allows keeps it.
- `Dependencies.intact_run`: so does every run of disciplined programs.
-/

namespace BookingPlatform.Library

variable {D : Schema}

namespace Dependencies

variable {X : Dependencies D} {T : Type} {supply : ℕ → D.Id × ℤ}

/-! ## The invariant -/

/-- A committed row, or one that some transaction has put. -/
def Present (g : SharedStore D T) (τ : D.Table) (r : D.Row τ) : Prop :=
  r ∈ g.store τ ∨ ∃ t, .put τ r ∈ (g.tx t).pending

/-- The needs of all committed rows are met, and those of the rows that a transaction has put are
met where it commits. Rows with one id provide the same, and the ids that are still to be drawn are
in no row. -/
structure Intact (X : Dependencies D) (supply : ℕ → D.Id × ℤ) (g : SharedStore D T)
    (ph : T → X.Knowledge) :
    Prop where
  met : X.Met g.store
  agree : ∀ τ r r', Present g τ r → Present g τ r' → D.id τ r = D.id τ r' →
    X.provides τ r = X.provides τ r'
  fresh : ∀ τ r, Present g τ r → ∀ n, g.drawn ≤ n → D.id τ r ≠ (supply n).1
  ordered : ∀ t, Ordered (g.tx t)
  grounded : ∀ t, X.Grounded g.store (g.tx t).pending
  supports : ∀ t, X.Supports g.store (g.tx t) (ph t)

variable {g : SharedStore D T} {ph ph' : T → X.Knowledge} {t : T} {τ : D.Table} {r : D.Row τ}

/-- An empty store, in which no transaction has put anything. -/
theorem Intact.initial (supply : ℕ → D.Id × ℤ) :
    X.Intact supply (SharedStore.initial T fun _ => []) fun _ => .empty := by
  have hnobody : ∀ (τ : D.Table) (r : D.Row τ), ¬Present (SharedStore.initial T fun _ =>
      []) τ r := by
    rintro τ r (hr | ⟨t, hput⟩)
    · exact absurd hr List.not_mem_nil
    · exact absurd hput List.not_mem_nil
  exact ⟨fun _ _ hr => absurd hr List.not_mem_nil, fun τ r _ hr => absurd hr (hnobody τ r),
    fun τ r hr => absurd hr (hnobody τ r), fun _ => ordered_idle, fun _ => .nil, fun _ =>
      supports_idle⟩

theorem Intact.congr (h : X.Intact supply g ph) (heq : ∀ t, ph' t = ph t) : X.Intact supply g ph' :=
  ⟨h.met, h.agree, h.fresh, h.ordered, h.grounded, fun t => heq t ▸ h.supports t⟩

theorem Present.view (hr : r ∈ (g.tx t).view g.store τ) : Present g τ r :=
  (Store.mem_applyAll hr).imp_right fun hput => ⟨t, hput⟩

/-- The rows of a transaction provide what others with their ids do. -/
theorem Intact.agree_tx (h : X.Intact supply g ph) (t : T) : X.Agree g.store (g.tx t).pending :=
  fun τ r r' hr hr' hid => h.agree τ r r' (hr.imp_right fun hput => ⟨t, hput⟩)
    (hr'.imp_right fun hput => ⟨t, hput⟩) hid

/-! ## Other stores -/

/-- A row that was present, or one that provides what a present row with its id does, or the one row
with the id that has been drawn. -/
def Succeeds (X : Dependencies D) (g : SharedStore D T) (id : D.Id) (new : List (Change D))
    (τ : D.Table) (r : D.Row τ) : Prop :=
  (∃ r₀, Present g τ r₀ ∧ D.id τ r = D.id τ r₀ ∧ X.provides τ r = X.provides τ r₀) ∨
    D.id τ r = id ∧ new = [.put τ r]

theorem Present.succeeds {id : D.Id} {new : List (Change D)} (h : Present g τ r) :
    X.Succeeds g id new τ r :=
  .inl ⟨r, h, rfl, rfl⟩

/-- Rows that succeed the present ones provide the same if they have one id. -/
theorem Intact.agree_of_succeeds (h : X.Intact supply g ph) {new : List (Change D)} {r' : D.Row τ}
    (hr : X.Succeeds g (supply g.drawn).1 new τ r) (hr' : X.Succeeds g (supply g.drawn).1 new τ r')
    (hid : D.id τ r = D.id τ r') : X.provides τ r = X.provides τ r' := by
  have hold : ∀ {r₀}, Present g τ r₀ → D.id τ r₀ ≠ (supply g.drawn).1 :=
    fun hr₀ => h.fresh τ _ hr₀ g.drawn (Nat.le_refl _)
  rcases hr with ⟨r₀, hr₀, hid₀, hprovides₀⟩ | ⟨hnew, hput⟩
  · rcases hr' with ⟨r₁, hr₁, hid₁, hprovides₁⟩ | ⟨hnew', -⟩
    · rw [hprovides₀, hprovides₁]
      exact h.agree τ r₀ r₁ hr₀ hr₁ (hid₀.symm.trans (hid.trans hid₁))
    · exact absurd (hid₀.symm.trans (hid.trans hnew')) (hold hr₀)
  · rcases hr' with ⟨r₁, hr₁, hid₁, -⟩ | ⟨-, hput'⟩
    · exact absurd (hid₁.symm.trans (hid.symm.trans hnew)) (hold hr₁)
    · cases hput.symm.trans hput'
      rfl

/-- Neither do they have an id that is still to be drawn. -/
theorem Intact.fresh_of_succeeds (hdistinct : Function.Injective fun n => (supply n).1)
    (h : X.Intact supply g ph) {new : List (Change D)}
    (hr : X.Succeeds g (supply g.drawn).1 new τ r) {n : ℕ} (hn : g.drawn + 1 ≤ n) :
    D.id τ r ≠ (supply n).1 := by
  rcases hr with ⟨r₀, hr₀, hid₀, -⟩ | ⟨hnew, -⟩
  · rw [hid₀]
    exact h.fresh τ r₀ hr₀ n (Nat.le_of_succ_le hn)
  · rw [hnew]
    exact fun heq => absurd (hdistinct heq) (Nat.ne_of_lt hn)

/-- The needs of the rows that a transaction sees are held once it has committed. -/
theorem Intact.commits (h : X.Intact supply g ph) (t : T) :
    (∀ k, X.Held g.store k → X.Held ((g.tx t).view g.store) k) ∧ X.Met ((g.tx t).view g.store) := by
  have hkept : ∀ τ id, .remove τ id ∈ (g.tx t).pending → ¬X.lasting τ :=
    fun τ id hmem => (h.grounded t).fits hmem
  have hheld : ∀ k, X.Supplied g.store (g.tx t).pending k → X.Held ((g.tx t).view g.store) k :=
    fun k hk => hk.applyAll (h.agree_tx t) hkept
  refine ⟨fun k hk => hheld k (.inl hk), fun τ r hr => ?_⟩
  obtain ⟨hsound, hneeds⟩ := h.met.view (h.grounded t) hr
  exact ⟨hsound, fun k hk => hheld k (hneeds k hk)⟩

/-! ## Steps -/

/-- The rows that are present after a statement. -/
theorem Intact.present_after (h : X.Intact supply g ph) {s : Stmt D} (hallows : (ph t).Allows s)
    {a : Except String s.Result}
    (ha : Answered g.store (g.tx t) (supply g.drawn).1 (supply g.drawn).2 s a) :
    ∃ new, ∀ τ r, .put τ r ∈ ((g.tx t).after g.store s a).pending →
      X.Succeeds g (supply g.drawn).1 new τ r := by
  rcases pending_after g.store (g.tx t) s a with ⟨n, htake⟩ | ⟨v, rfl, happend⟩
  · -- the statement takes changes back: what is left was present
    refine ⟨[], fun τ r hput => ?_⟩
    rw [htake] at hput
    have hpresent : Present g τ r := .inr ⟨t, List.mem_of_mem_take hput⟩
    exact hpresent.succeeds
  · -- it writes: what is new is what the discipline allows
    refine ⟨((g.tx t).view g.store).writes s v, fun τ r hput => ?_⟩
    rw [happend] at hput
    rcases List.mem_append.1 hput with hput | hput
    · have hpresent : Present g τ r := .inr ⟨t, hput⟩
      exact hpresent.succeeds
    · obtain ⟨-, hrow⟩ := fits_of_allowed h.met (h.grounded t) (h.supports t).keys hallows ha hput
      rcases hrow τ r rfl with ⟨hid, honly⟩ | ⟨r₀, hr₀, hid, hprovides⟩
      · exact .inr ⟨hid, honly⟩
      · exact .inl ⟨r₀, .view hr₀, hid, hprovides⟩

section Steps

variable [DecidableEq T]

/-- A statement that the discipline allows keeps the invariant. -/
theorem Intact.call (hdistinct : Function.Injective fun n => (supply n).1)
    (h : X.Intact supply g ph) {s : Stmt D} (hallows : (ph t).Allows s) {a : Except String s.Result}
    (ha : Answered g.store (g.tx t) (supply g.drawn).1 (supply g.drawn).2 s a)
    (hself : ph' t = (ph t).next s a) (hframe : ∀ u, u ≠ t → ph' u = ph u) :
    X.Intact supply ⟨(g.tx t).committed g.store s a,
      Function.update g.tx t ((g.tx t).after g.store s a), g.drawn + 1⟩ ph' := by
  obtain ⟨new, hnew⟩ := h.present_after hallows ha
  -- the rows that are pending: those of `t` come from the statement, the others were there
  have hpending : ∀ u τ r,
    .put τ r ∈ (Function.update g.tx t ((g.tx t).after g.store s a) u).pending →
      X.Succeeds g (supply g.drawn).1 new τ r := by
    intro u τ r hput
    by_cases hu : u = t
    · subst hu
      rw [Function.update_self] at hput
      exact hnew τ r hput
    · rw [Function.update_of_ne hu] at hput
      have hpresent : Present g τ r := .inr ⟨u, hput⟩
      exact hpresent.succeeds
  have hordered : ∀ u, Ordered (Function.update g.tx t ((g.tx t).after g.store s a) u) := by
    intro u
    by_cases hu : u = t
    · subst hu
      rw [Function.update_self]
      exact (h.ordered u).after s a
    · rw [Function.update_of_ne hu]
      exact h.ordered u
  -- only a `COMMIT` changes what is committed
  rcases committed_cases g.store (g.tx t) s a with hkept | ⟨hview, rfl⟩
  · rw [hkept]
    have hpresent : ∀ τ r, Present ⟨g.store, Function.update g.tx t ((g.tx t).after g.store s a),
        g.drawn + 1⟩ τ r → X.Succeeds g (supply g.drawn).1 new τ r := by
      rintro τ r (hr | ⟨u, hput⟩)
      · exact Present.succeeds (.inl hr)
      · exact hpending u τ r hput
    refine ⟨h.met, fun τ r r' hr hr' => h.agree_of_succeeds (hpresent τ r hr) (hpresent τ r' hr'),
      fun τ r hr n hn => h.fresh_of_succeeds hdistinct (hpresent τ r hr) hn, hordered, fun u => ?_,
      fun u => ?_⟩
    · by_cases hu : u = t
      · subst hu
        simp only [Function.update_self]
        exact (h.grounded u).after h.met (h.supports u) hallows ha
      · simp only [Function.update_of_ne hu]
        exact h.grounded u
    · by_cases hu : u = t
      · subst hu
        rw [hself]
        simp only [Function.update_self]
        exact (h.supports u).after h.met (h.grounded u) (h.ordered u) hallows ha
      · rw [hframe u hu]
        simp only [Function.update_of_ne hu]
        exact h.supports u
  · -- what is committed now is what `t` has seen
    rw [hview]
    obtain ⟨hheld, hmet⟩ := h.commits t
    have hpresent : ∀ τ r, Present ⟨(g.tx t).view g.store, Function.update g.tx t
        ((g.tx t).after g.store .commit a), g.drawn + 1⟩ τ r →
        X.Succeeds g (supply g.drawn).1 new τ r := by
      rintro τ r (hr | ⟨u, hput⟩)
      · exact Present.succeeds (.view hr)
      · exact hpending u τ r hput
    refine ⟨hmet, fun τ r r' hr hr' => h.agree_of_succeeds (hpresent τ r hr) (hpresent τ r' hr'),
      fun τ r hr n hn => h.fresh_of_succeeds hdistinct (hpresent τ r hr) hn, hordered, fun u => ?_,
      fun u => ?_⟩
    · by_cases hu : u = t
      · subst hu
        simp only [Function.update_self]
        exact .nil
      · simp only [Function.update_of_ne hu]
        exact (h.grounded u).store hheld
    · by_cases hu : u = t
      · subst hu
        rw [hself]
        simp only [Function.update_self]
        exact supports_idle
      · rw [hframe u hu]
        simp only [Function.update_of_ne hu]
        exact (h.supports u).store hheld

/-- So does the end of a session that dies. -/
theorem Intact.crash (h : X.Intact supply g ph) (hself : ph' t = .empty)
    (hframe : ∀ u, u ≠ t → ph' u = ph u) :
    X.Intact supply { g with tx := Function.update g.tx t .idle } ph' := by
  -- the rows that are left were present
  have hpresent : ∀ τ r, Present { g with tx := Function.update g.tx t .idle } τ r →
      Present g τ r := by
    rintro τ r (hr | ⟨u, hput⟩)
    · exact .inl hr
    · by_cases hu : u = t
      · subst hu
        simp only [Function.update_self] at hput
        exact absurd hput List.not_mem_nil
      · simp only [Function.update_of_ne hu] at hput
        exact .inr ⟨u, hput⟩
  refine ⟨h.met, fun τ r r' hr hr' => h.agree τ r r' (hpresent τ r hr) (hpresent τ r' hr'),
    fun τ r hr => h.fresh τ r (hpresent τ r hr), fun u => ?_, fun u => ?_, fun u => ?_⟩
  -- the session that dies is idle, the others have not moved
  all_goals by_cases hu : u = t
  · subst hu
    simp only [Function.update_self]
    exact ordered_idle
  · simp only [Function.update_of_ne hu]
    exact h.ordered u
  · subst hu
    simp only [Function.update_self]
    exact .nil
  · simp only [Function.update_of_ne hu]
    exact h.grounded u
  · subst hu
    rw [hself]
    simp only [Function.update_self]
    exact supports_idle
  · rw [hframe u hu]
    simp only [Function.update_of_ne hu]
    exact h.supports u

end Steps

/-- What something else may commit: rows that need nothing, with the id that is drawn for it or in
the place of a row that provides the same, and the removal of rows that nobody refers to. -/
def Outside (X : Dependencies D) (db : Store D) (id : D.Id) : Change D → Prop
  | .put τ r => X.sound τ r ∧ X.needs τ r = [] ∧
    (D.id τ r = id ∨ ∃ r₀ ∈ db τ, D.id τ r = D.id τ r₀ ∧ X.provides τ r = X.provides τ r₀)
  | .remove τ _ => ¬X.lasting τ

theorem Intact.outside (hdistinct : Function.Injective fun n => (supply n).1)
    (h : X.Intact supply g ph) {c : Change D} (hc : X.Outside g.store (supply g.drawn).1 c) :
    X.Intact supply ⟨g.store.apply c, g.tx, g.drawn + 1⟩ ph := by
  -- a row from outside is new, or provides what its predecessor did
  have hput : ∀ τ r, c = .put τ r → X.Succeeds g (supply g.drawn).1 [c] τ r := by
    rintro τ r rfl
    rcases hc.2.2 with hid | ⟨r₀, hr₀, hid, hprovides⟩
    · exact .inr ⟨hid, rfl⟩
    · exact .inl ⟨r₀, .inl hr₀, hid, hprovides⟩
  have happly : ∀ τ r, r ∈ g.store.apply c τ → r ∈ g.store τ ∨ c = .put τ r :=
    fun τ r hr => Store.mem_apply hr
  have hrow : ∀ τ r, r ∈ g.store τ ∨ c = .put τ r → X.Succeeds g (supply g.drawn).1 [c] τ r := by
    rintro τ r (hr | hr)
    · exact Present.succeeds (.inl hr)
    · exact hput τ r hr
  have hpresent : ∀ τ r, Present ⟨g.store.apply c, g.tx, g.drawn + 1⟩ τ r →
      X.Succeeds g (supply g.drawn).1 [c] τ r := by
    rintro τ r (hr | ⟨u, hu⟩)
    · exact hrow τ r (happly τ r hr)
    · exact Present.succeeds (.inr ⟨u, hu⟩)
  have hagree : X.Agree g.store [c] := by
    have hamong : ∀ τ r, Among g.store [c] τ r → X.Succeeds g (supply g.drawn).1 [c] τ r :=
        fun τ r hr =>
      hrow τ r (hr.imp_right fun hmem => (List.mem_singleton.1 hmem).symm)
    exact fun τ r r' hr hr' => h.agree_of_succeeds (hamong τ r hr) (hamong τ r' hr')
  -- nothing that lasts is removed, so that what is held stays held
  have hheld : ∀ k, X.Held g.store k → X.Held (g.store.apply c) k := by
    intro k hk
    refine hk.apply hagree ?_
    rintro τ id rfl
    exact hc
  refine ⟨?_, fun τ r r' hr hr' => h.agree_of_succeeds (hpresent τ r hr) (hpresent τ r' hr'),
    fun τ r hr n hn => h.fresh_of_succeeds hdistinct (hpresent τ r hr) hn, h.ordered,
    fun u => (h.grounded u).store hheld, fun u => (h.supports u).store hheld⟩
  intro τ r hr
  rcases happly τ r hr with hr | rfl
  · obtain ⟨hsound, hneeds⟩ := h.met τ r hr
    exact ⟨hsound, fun k hk => hheld k (hneeds k hk)⟩
  · -- the row from outside needs nothing
    refine ⟨hc.1, fun k hk => ?_⟩
    rw [hc.2.1] at hk
    exact absurd hk List.not_mem_nil

/-! ## Runs -/

section Runs

variable {ρ ε α : Type} [DecidableEq T] {outside : Store D → D.Id → Change D → Prop}
  {program : ρ → Prog (storeSignature D) ε α}

theorem answers_of_answered {db : Store D} {tx : Tx D} {id : D.Id} {time : ℤ} {s : Stmt D}
    {a : Except String s.Result} (h : Answered db tx id time s a) : Answers s a := by
  cases s with
  | select τ p =>
    cases a with
    | error code => trivial
    | ok rows => exact fun r hr => (h.select r hr).2
  | insert τ row =>
    cases a with
    | error code => trivial
    | ok r => exact ⟨id, time, h.insert⟩
  | _ => trivial

/-- What each program knows, from its own statements. -/
def knowledge (X : Dependencies D) (supply : ℕ → D.Id × ℤ)
    (outside : Store D → D.Id → Change D → Prop) (program : ρ → Prog (storeSignature D) ε α) :
    Tracker (storeServer (T := T) supply outside program) X.discipline .empty fun _ => .empty :=
  Server.possibleTracker _ _ _ _ fun _ _ _ _ _ h => answers_of_answered h

/-- Every program keeps to the discipline, and the store is intact. -/
structure Kept (X : Dependencies D) (supply : ℕ → D.Id × ℤ)
    (outside : Store D → D.Id → Change D → Prop) (program : ρ → Prog (storeSignature D) ε α)
    (w : World (storeSignature D) T (SharedStore D T) ρ ε α) :
    Prop where
  conforms : (knowledge X supply outside program).Conforms (fun _ _ => True) w
  intact : X.Intact supply w.shared ((knowledge X supply outside program).phase w)

variable {w w' : World (storeSignature D) T (SharedStore D T) ρ ε α}

theorem Kept.step (hdistinct : Function.Injective fun n => (supply n).1)
    (houtside : ∀ db id c, outside db id c → X.Outside db id c)
    (hprogram : ∀ q, (program q).Follows X.discipline (fun _ _ => True) .empty)
    {l : Label (storeSignature D) T ρ} (h : Kept X supply outside program w)
    (hs : World.Step (storeServer supply outside program) w l w') :
    Kept X supply outside program w' := by
  refine ⟨h.conforms.step hprogram hs, ?_⟩
  cases hs with
  -- a session that starts knows nothing yet
  | @start t q hidle =>
    refine h.intact.congr fun u => ?_
    by_cases hu : u = t
    · subst hu
      have hempty := h.conforms.phase_idle hidle
      rw [hempty]
      exact (knowledge X supply outside program).start_eq w u q hidle hempty
    · exact (knowledge X supply outside program).start_frame w t q u hu
  -- the program allows only what the discipline does
  | @call t q tr s k a hat hr =>
    exact h.intact.call hdistinct (h.conforms.allows hat) hr
      ((knowledge X supply outside program).call_eq w t q s k tr a hat hr)
      fun u hu => (knowledge X supply outside program).call_frame w t q (k a) tr s a u hu
  | @crash t σ hat _ =>
    exact h.intact.crash ((knowledge X supply outside program).crash_eq w t)
      fun u hu => (knowledge X supply outside program).crash_frame w t u hu
  | @env g hg =>
    obtain ⟨c, hc, rfl⟩ := hg
    exact (h.intact.outside hdistinct (houtside _ _ c hc)).congr fun u =>
      (knowledge X supply outside program).env_frame w _ u ⟨c, hc, rfl⟩

/-- Every run of disciplined programs from an empty store keeps what each row needs held. -/
theorem intact_run (hdistinct : Function.Injective fun n => (supply n).1)
    (houtside : ∀ db id c, outside db id c → X.Outside db id c)
    (hprogram : ∀ q, (program q).Follows X.discipline (fun _ _ => True) .empty)
    (hrun : Runs (World.Step (storeServer supply outside program)) anyStep
      (World.fresh (SharedStore.initial T fun _ => [])) w) :
    ∃ ph, X.Intact supply w.shared ph := by
  have hend : Kept X supply outside program w :=
    hrun.invariant (fun _ _ _ h _ hs => h.step hdistinct houtside hprogram hs) ⟨fun _ =>
      rfl, .initial supply⟩
  exact ⟨_, hend.intact⟩

end Runs

end Dependencies

end BookingPlatform.Library
