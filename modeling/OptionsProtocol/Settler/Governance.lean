import OptionsProtocol.Settler.Premium

/-!
# Who can change what the settler keeps

The settler's owner is whoever initialised it, for good. The owner sets the fee, the delay after which makers
may redeem for themselves, and the keys the settler deals with, always within the bounds the handlers check,
and lists the makers. A maker's nonce and the cancellations of its quotes are the maker's. Each of these
changes only in a step its holder has signed, so that neither can act in the other's place, and nobody else
in the place of either.
-/

namespace OptionsProtocol

namespace Settler

open Except

variable {D : Deployment} {T : TokenProgram} {rent : ℕ → ℕ} {verifies : Ed25519.Signed → Bool}
  {s s' s₀ s₁ : State} {c : SettlerConfig} {l : Label} {tr tr₀ : List (Transition State Label)}
  {m k : Pubkey}

/-! ## The configuration -/

/-- The bounds the handlers check. -/
structure SettlerConfig.Valid (c : SettlerConfig) : Prop where
  fee_le : c.protocolFeeBps ≤ MAX_FEE_BPS
  delay_ge : MIN_ESCAPE_DELAY ≤ c.escapeDelay
  operator_ne : c.operator ≠ Pubkey.default
  treasury_ne : c.treasury ≠ Pubkey.default

/-- Who signed the step, among the accounts the settler asks for a signature. -/
def Label.signers : Label → List Pubkey
  | .call ix => ix.signers
  | _ => []

theorem ownerConfig_bind_eq_ok {α : Type} {owner : Pubkey} {f : SettlerConfig → Except Error α} {a : α} :
    (ownerConfig owner s >>= f) = .ok a ↔ ∃ c, s.config = some c ∧ c.owner = owner ∧ f c = .ok a := by
  simp only [ownerConfig, loadConfig, bind_eq_ok, fromOption_eq_ok, require_eq_ok, pure_eq_ok]
  constructor
  · rintro ⟨c, ⟨_, hc, _, howner, rfl⟩, ha⟩
    exact ⟨_, hc, howner, ha⟩
  · rintro ⟨c, hc, howner, ha⟩
    exact ⟨c, ⟨c, hc, (), howner, rfl⟩, ha⟩

/-- How an instruction may change the configuration. -/
inductive Reconfigured (s s' : State) (signers : List Pubkey) : Prop
  | same (h : s'.config = s.config)
  | initialized {c : SettlerConfig} (h : s.config = none) (h' : s'.config = some c) (hvalid : c.Valid)
  | changed {c c' : SettlerConfig} (h : s.config = some c) (h' : s'.config = some c')
      (howner : c'.owner = c.owner) (hsigned : c.owner ∈ signers) (hvalid : c.Valid → c'.Valid)

theorem reconfigured_of_exec {ix : Instruction} (h : exec D T rent ix s = .ok s') :
    Reconfigured s s' ix.signers := by
  cases ix with
  | initializeConfig payer operator treasury fee delay jupiter =>
    simp only [exec, initializeConfig, require_bind_eq_ok, fromOption_bind_eq_ok, pure_eq_ok] at h
    obtain ⟨hnone, _, -, hop, htr, hfee, hdelay, rfl⟩ := h
    exact .initialized hnone rfl ⟨hfee, hdelay, hop, htr⟩
  | setTreasury owner treasury =>
    simp only [exec, setTreasury, ownerConfig_bind_eq_ok, require_bind_eq_ok, pure_eq_ok] at h
    obtain ⟨c, hc, rfl, hne, rfl⟩ := h
    exact .changed hc rfl rfl (List.mem_singleton_self _) fun hv ↦ { hv with treasury_ne := hne }
  | setProtocolFee owner fee =>
    simp only [exec, setProtocolFee, ownerConfig_bind_eq_ok, require_bind_eq_ok, pure_eq_ok] at h
    obtain ⟨c, hc, rfl, hle, rfl⟩ := h
    exact .changed hc rfl rfl (List.mem_singleton_self _) fun hv ↦ { hv with fee_le := hle }
  | setOperator owner operator =>
    simp only [exec, setOperator, ownerConfig_bind_eq_ok, require_bind_eq_ok, pure_eq_ok] at h
    obtain ⟨c, hc, rfl, hne, rfl⟩ := h
    exact .changed hc rfl rfl (List.mem_singleton_self _) fun hv ↦ { hv with operator_ne := hne }
  | pause owner paused =>
    simp only [exec, pause, ownerConfig_bind_eq_ok, pure_eq_ok] at h
    obtain ⟨c, hc, rfl, rfl⟩ := h
    exact .changed hc rfl rfl (List.mem_singleton_self _) fun hv ↦ ⟨hv.1, hv.2, hv.3, hv.4⟩
  | setEscapeDelay owner delay =>
    simp only [exec, setEscapeDelay, ownerConfig_bind_eq_ok, require_bind_eq_ok, pure_eq_ok] at h
    obtain ⟨c, hc, rfl, hge, rfl⟩ := h
    exact .changed hc rfl rfl (List.mem_singleton_self _) fun hv ↦ { hv with delay_ge := hge }
  | setJupiterProgram owner jupiter =>
    simp only [exec, setJupiterProgram, ownerConfig_bind_eq_ok, require_bind_eq_ok, pure_eq_ok] at h
    obtain ⟨c, hc, rfl, -, rfl⟩ := h
    exact .changed hc rfl rfl (List.mem_singleton_self _) fun hv ↦ ⟨hv.1, hv.2, hv.3, hv.4⟩
  | withdrawRentReserve owner recipient lamports =>
    simp only [exec, withdrawRentReserve, ownerConfig_bind_eq_ok, require_bind_eq_ok,
      fromOption_bind_eq_ok, pure_eq_ok] at h
    obtain ⟨c, hc, rfl, -, -, -, _, -, rfl⟩ := h
    exact .same rfl
  | initVaultCounter owner vaultCounter =>
    obtain ⟨_, _, -, -, rfl⟩ := initVaultCounter_effect h
    exact .same rfl
  | whitelistMaker owner maker whitelisted =>
    obtain ⟨_, -, rfl⟩ := whitelistMaker_effect h
    exact .same rfl
  | incrementMakerNonce maker =>
    obtain ⟨_, -, rfl⟩ := incrementMakerNonce_effect h
    exact .same rfl
  | cancelQuote maker quoteId =>
    obtain ⟨_, -, rfl⟩ := cancelQuote_effect h
    exact .same rfl
  | settleVault operator ctx =>
    obtain ⟨-, _, -, rfl⟩ := settleVault_eq_ok.mp h
    exact .same rfl
  | executeOrder ctx ord tx i =>
    obtain ⟨_, he⟩ := executeOrder_effect h
    exact .same (by rw [he.state_eq])
  | emergencyWithdraw ctx =>
    obtain ⟨_, _, _, _, _, he⟩ := emergencyWithdraw_effect h
    exact .same (by rw [he.state_eq])
  | redeemForMM ctx n =>
    obtain ⟨_, _, _, _, he⟩ := redeemForMM_effect h
    exact .same (by rw [he.state_eq])
  | mmSelfRedeem ctx n =>
    obtain ⟨_, _, _, _, he⟩ := mmSelfRedeem_effect h
    exact .same (by rw [he.state_eq])
  | physicalRedeem ctx n most swap =>
    obtain ⟨_, he⟩ := physicalRedeem_effect h
    exact .same (by rw [he.state_eq])

theorem Step.reconfigured (h : Step D T rent verifies s l s') : Reconfigured s s' l.signers := by
  cases h with
  | call _ _ h => exact reconfigured_of_exec h
  | controller _ _ _ => exact .same rfl
  | lamports _ => exact .same rfl

/-! ## Makers -/

/-- The maker is listed. -/
def State.isListed (s : State) (m : Pubkey) : Bool :=
  (s.makerStates.lookup m).elim false MakerState.whitelisted

theorem isListed_of_insert {state : MakerState} (h : s'.makerStates = s.makerStates.insert k state)
    (m : Pubkey) : s'.isListed m = if m = k then state.whitelisted else s.isListed m := by
  rw [State.isListed, h, Store.lookup_insert_eq]
  split <;> rfl

/-- **Who signed for a change of the makers**: the owner lists them, and they raise their nonces. -/
theorem Step.makerStates (h : Step D T rent verifies s l s') :
    s'.makerStates = s.makerStates ∨
    (∃ c k w, s.config = some c ∧ c.owner ∈ l.signers ∧ s'.makerStates = s.makerStates.insert k
      (((s.makerStates.lookup k).getD .zeroed).listed k w)) ∨
    (∃ k state, k ∈ l.signers ∧ s.makerStates.lookup k = some state ∧
      s'.makerStates = s.makerStates.insert k { state with nonce := state.nonce + 1 }) := by
  have hmove := h.move
  cases hmove with
  | @listed owner k w system =>
    obtain ⟨c, hc, rfl⟩ : ∃ c, s.config = some c ∧ c.owner = owner := by
      cases h with
      | call _ _ h =>
        obtain ⟨c, hc, howner, -⟩ := ownerConfig_bind_eq_ok.mp h
        exact ⟨c, hc, howner⟩
    exact .inr (.inl ⟨c, k, w, hc, List.mem_singleton_self _, rfl⟩)
  | @bumped k state hk => exact .inr (.inr ⟨k, state, List.mem_singleton_self _, hk, rfl⟩)
  | configured _ hc => exact .inl hc.makerStates_eq
  | executed _ _ he => exact .inl (by rw [he.state_eq])
  | withdrawn _ he => exact .inl (by rw [he.state_eq])
  | redeemed _ he => exact .inl (by rw [he.state_eq])
  | delivered _ he => exact .inl (by rw [he.state_eq])
  | _ => exact .inl rfl

theorem Step.isListed (h : Step D T rent verifies s l s') (hc : s.config = some c)
    (howner : c.owner ∉ l.signers) (m : Pubkey) : s'.isListed m = s.isListed m := by
  rcases h.makerStates with heq | ⟨c', k, w, hc', hsigned, -⟩ | ⟨k, state, -, hk, heq⟩
  · rw [State.isListed, heq]
    rfl
  · rw [Option.some.inj (hc.symm.trans hc')] at howner
    exact absurd hsigned howner
  · rw [isListed_of_insert heq]
    split
    · rename_i hmk
      rw [hmk, State.isListed, hk]
      rfl
    · rfl

theorem Step.nonceOf (h : Step D T rent verifies s l s') (hn : MakersNamed s) (hm : m ≠ Pubkey.default)
    (hsigned : m ∉ l.signers) : s'.nonceOf m = s.nonceOf m := by
  rcases h.makerStates with heq | ⟨c, k, w, -, -, heq⟩ | ⟨k, state, hk, -, heq⟩
  · rw [State.nonceOf, heq]
    rfl
  · rw [nonceOf_of_insert heq]
    split
    · rename_i hmk
      subst hmk
      rw [State.nonceOf]
      cases hlookup : s.makerStates.lookup m with
      | none =>
        have hfresh : MakerState.zeroed.maker = Pubkey.default := rfl
        rw [Option.getD_none, MakerState.listed, if_pos hfresh]
        rfl
      | some state =>
        have hne : state.maker ≠ Pubkey.default := (hn m state hlookup).symm ▸ hm
        rw [Option.getD_some, MakerState.listed, if_neg hne, Option.elim_some]
    · rfl
  · rw [nonceOf_of_insert heq, if_neg]
    rintro rfl
    exact hsigned hk

theorem Move.isCancelled_eq (h : Move D T verifies s l s') {q : QuoteKey} (hq : q.maker ∉ l.signers) :
    s'.isCancelled q = s.isCancelled q := by
  have hsame : s'.quoteFills = s.quoteFills → s'.isCancelled q = s.isCancelled q := by
    intro heq
    rw [State.isCancelled, heq]
    rfl
  cases h with
  | configured _ hc => exact hsame hc.quoteFills_eq
  | withdrawn _ he => exact hsame (by rw [he.state_eq])
  | redeemed _ he => exact hsame (by rw [he.state_eq])
  | delivered _ he => exact hsame (by rw [he.state_eq])
  | @cancelled k quoteId system =>
    rw [isCancelled_of_insert rfl, if_neg]
    rintro rfl
    exact hq (List.mem_singleton_self _)
  | executed _ _ he =>
    rw [isCancelled_of_insert (congrArg State.quoteFills he.state_eq)]
    split
    · rename_i hkey
      rw [hkey, he.not_cancelled]
    · rfl
  | _ => exact hsame rfl

/-! ## Runs -/

theorem valid_of_run (hrun : Run (Step D T rent verifies) s₀ tr s) (h₀ : Initial D s₀) :
    ∀ c, s.config = some c → c.Valid := by
  refine Run.invariant (I := fun s ↦ ∀ c, s.config = some c → c.Valid) ?_ ?_ hrun
  · intro c hc
    rw [h₀.config] at hc
    exact absurd hc (by simp)
  · intro u l u' hu hs c' hc'
    rcases hs.reconfigured with hsame | ⟨-, hnew, hvalid⟩ | ⟨hold, hnew, -, -, hvalid⟩
    · exact hu c' (hsame ▸ hc')
    · exact Option.some.inj (hnew.symm.trans hc') ▸ hvalid
    · exact Option.some.inj (hnew.symm.trans hc') ▸ hvalid (hu _ hold)

theorem owner_of_run (hrun : Run (Step D T rent verifies) s₁ tr s) (hc : s₁.config = some c) :
    ∃ c', s.config = some c' ∧ c'.owner = c.owner := by
  refine Run.invariant (I := fun s ↦ ∃ c', s.config = some c' ∧ c'.owner = c.owner) ⟨c, hc, rfl⟩ ?_ hrun
  rintro u l u' ⟨c', hc', howner⟩ hs
  rcases hs.reconfigured with hsame | ⟨hnone, -, -⟩ | ⟨hold, hnew, hkept, -, -⟩
  · exact ⟨c', hsame.trans hc', howner⟩
  · rw [hnone] at hc'
    exact absurd hc' (by simp)
  · obtain rfl := Option.some.inj (hold.symm.trans hc')
    exact ⟨_, hnew, hkept.trans howner⟩

/-- **Owner and makers act for themselves only.** From any reachable state of an initialised settler on,
the owner stays the same, and the fee and the delay stay within their bounds. In a stretch in which the
owner signs nothing, the configuration is as it was and the same makers are listed; in one in which a
maker signs nothing, its nonce is as it was and the same of its quotes are cancelled. -/
theorem settler_governed (hreach : Run (Step D T rent verifies) s₀ tr₀ s₁) (h₀ : Initial D s₀)
    (hc : s₁.config = some c) (hrun : Run (Step D T rent verifies) s₁ tr s) :
    (∃ c', s.config = some c' ∧ c'.owner = c.owner ∧ c'.Valid) ∧
      ((∀ t ∈ tr, c.owner ∉ t.label.signers) →
        s.config = some c ∧ ∀ m, s.isListed m = s₁.isListed m) ∧
      ∀ m ≠ Pubkey.default, (∀ t ∈ tr, m ∉ t.label.signers) →
        s.nonceOf m = s₁.nonceOf m ∧ ∀ q : QuoteKey, q.maker = m → s.isCancelled q = s₁.isCancelled q := by
  refine ⟨?_, fun howner ↦ ?_, fun m hm hmaker ↦ ?_⟩
  · obtain ⟨c', hc', howner⟩ := owner_of_run hrun hc
    exact ⟨c', hc', howner, valid_of_run (hreach.append hrun) h₀ c' hc'⟩
  · refine Run.invariant_of (I := fun s ↦ s.config = some c ∧ ∀ m, s.isListed m = s₁.isListed m)
      ⟨hc, fun _ ↦ rfl⟩ ?_ hrun howner
    intro u l u' hu hs hsigned
    refine ⟨?_, fun m ↦ (hs.isListed hu.1 hsigned m).trans (hu.2 m)⟩
    rcases hs.reconfigured with hsame | ⟨hnone, -, -⟩ | ⟨hold, -, -, hby, -⟩
    · exact hsame.trans hu.1
    · rw [hnone] at hu
      exact absurd hu.1 (by simp)
    · rw [Option.some.inj (hu.1.symm.trans hold)] at hsigned
      exact absurd hby hsigned
  · have hall : MakersNamed s ∧ s.nonceOf m = s₁.nonceOf m ∧
        ∀ q : QuoteKey, q.maker = m → s.isCancelled q = s₁.isCancelled q := by
      refine Run.invariant_of (I := fun s ↦ MakersNamed s ∧ s.nonceOf m = s₁.nonceOf m ∧
        ∀ q : QuoteKey, q.maker = m → s.isCancelled q = s₁.isCancelled q)
        ⟨makersNamed_of_run hreach h₀, rfl, fun _ _ ↦ rfl⟩ ?_ hrun hmaker
      intro u l u' ⟨hnamed, hnonce, hcancelled⟩ hs hsigned
      refine ⟨hs.move.makersNamed hnamed, (hs.nonceOf hnamed hm hsigned).trans hnonce, ?_⟩
      rintro q rfl
      exact (hs.move.isCancelled_eq hsigned).trans (hcancelled q rfl)
    exact hall.2

/-- After the maker of the sample quote cancelled it, the settler is configured as before. -/
theorem settler_governed_sample :
    (Run.playState (Action.next sampleDeployment splToken id) (sampleRun sampleFilled)
      [sampleCancel]).config = some ⟨1, 1, 2, 100, false, 259200, 7⟩ := by
  have hreach : Run (Step sampleDeployment splToken id sampleScheme) sampleState
      (sampleTrace sampleFilled) (sampleRun sampleFilled) :=
    sampleRun_run (by decide +kernel) (by decide +kernel)
  have hconfig : (sampleRun sampleFilled).config = some ⟨1, 1, 2, 100, false, 259200, 7⟩ := by
    decide +kernel
  have hallowed : ∀ a ∈ [sampleCancel], a.Allowed sampleDeployment splToken sampleScheme := by
    intro a ha
    rw [List.mem_singleton.mp ha]
    exact Action.allowed_of_bySampleUser (by decide)
  have hrun : Run (Step sampleDeployment splToken id sampleScheme) (sampleRun sampleFilled)
      (Run.playTrace (Action.next sampleDeployment splToken id) Action.label (sampleRun sampleFilled)
        [sampleCancel]) _ := run_of_script hallowed (by decide +kernel)
  refine ((settler_governed hreach sampleState_initial hconfig hrun).2.1 fun t ht ↦ ?_).1
  have hsigners : ∀ a ∈ [sampleCancel], (1 : Pubkey) ∉ a.label.signers := by decide
  exact Run.label_of_mem_playTrace _ _ (P := fun l : Label ↦ (1 : Pubkey) ∉ l.signers) hsigners ht

end Settler

end OptionsProtocol
