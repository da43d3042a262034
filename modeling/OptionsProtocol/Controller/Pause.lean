import OptionsProtocol.Controller.Stranding

/-!
# Pauses

The controller can be paused in two ways. Either of them closes it to new business: nobody opens a vault,
deposits or mints, so that vaults keep their collateral and their oTokens until they are settled, and no
series grows. The full pause stops settlements and redemptions too, and is the only time at which the owner
of a vault may take its collateral back.

Those who leave during a full pause share the pool with each other only. An account of the pool that covers
the vaults at its beginning covers those that are left at any time after, whoever left meanwhile.
-/

namespace OptionsProtocol

namespace Controller

open Except

variable {D : Deployment} {T : TokenProgram} {s s' s₀ : State} {l : Label} {c : ControllerConfig}
  {ix : Instruction} {tr tr' : List (Transition State Label)} {M p : Pubkey}

/-! ## What a pause stops -/

/-- The instruction does not get through. -/
def Instruction.Stopped (c : ControllerConfig) : Instruction → Prop
  | .openVault .. | .depositCollateral .. | .mintOtoken .. =>
    c.fullyPaused = true ∨ c.partiallyPaused = true
  | .settleVault _ | .redeem .. => c.fullyPaused = true
  | .emergencyWithdrawVault _ => c.fullyPaused = false
  | _ => False

theorem not_stopped_of_exec (h : exec D T ix s = .ok s') (hc : s.config = some c) : ¬ix.Stopped c := by
  have hopen : ∀ {b b' : Bool}, b = false → b' = false → ¬(b = true ∨ b' = true) := by
    rintro _ _ rfl rfl
    simp
  have hrun : ∀ {b : Bool}, b = false → ¬b = true := by
    rintro _ rfl
    simp
  cases ix with
  | openVault owner collateralMint beneficiary =>
    simp only [exec, openVault, loadConfig, hc, fromOption_bind_eq_ok, require_bind_eq_ok,
      Option.some.injEq, exists_eq_left'] at h
    obtain ⟨_, -, -, -, -, -, hfull, hpart, -⟩ := h
    exact hopen hfull hpart
  | depositCollateral ctx amount =>
    simp only [exec, depositCollateral, loadConfig, loadVault, loadTokenAccount, loadMint, hc,
      fromOption_bind_eq_ok, require_bind_eq_ok, Option.some.injEq, exists_eq_left'] at h
    obtain ⟨_, -, _, -, _, -, _, -, -, -, -, -, -, -, hfull, hpart, -⟩ := h
    exact hopen hfull hpart
  | mintOtoken ctx amount =>
    simp only [exec, mintOtoken, loadConfig, loadVault, loadOtokenInfo, loadTokenAccount, loadMint, hc,
      fromOption_bind_eq_ok, require_bind_eq_ok, Option.some.injEq, exists_eq_left'] at h
    obtain ⟨_, -, _, -, _, -, _, -, -, -, -, -, -, hfull, hpart, -⟩ := h
    exact hopen hfull hpart
  | settleVault ctx =>
    simp only [exec, settleVault, loadConfig, loadVault, loadOtokenInfo, loadTokenAccount, loadMint, hc,
      fromOption_bind_eq_ok, require_bind_eq_ok, Option.some.injEq, exists_eq_left'] at h
    obtain ⟨_, -, _, -, _, -, _, -, _, -, -, -, -, -, -, -, -, -, -, -, hfull, -⟩ := h
    exact hrun hfull
  | redeem ctx amount =>
    simp only [exec, redeem, loadConfig, loadOtokenInfo, loadTokenAccount, loadMint, hc,
      fromOption_bind_eq_ok, require_bind_eq_ok, Option.some.injEq, exists_eq_left'] at h
    obtain ⟨_, -, _, -, _, -, _, -, _, -, _, -, -, -, -, -, -, -, -, -, -, -, hfull, -⟩ := h
    exact hrun hfull
  | emergencyWithdrawVault ctx =>
    obtain ⟨v, pool, ben, L, he⟩ := emergencyWithdrawVault_effect h
    obtain ⟨c', hc', hfull⟩ := he.paused
    obtain rfl := Option.some.inj (hc.symm.trans hc')
    simp [Instruction.Stopped, hfull]
  | _ => exact id

/-- **What happens to the configuration.** Each pause is one instruction's own, and the keys that may issue
it are in the configuration. -/
theorem config_of_exec (h : exec D T ix s = .ok s') (hc : s.config = some c) :
    s'.config = some c ∨
    (∃ pauser, ix = .setPartialPauser c.admin pauser ∧
      s'.config = some { c with partialPauser := pauser }) ∨
    (∃ k b, ix = .setPartiallyPaused k b ∧ (k = c.admin ∨ k = c.partialPauser) ∧
      s'.config = some { c with partiallyPaused := b }) ∨
    ∃ b, ix = .setFullyPaused c.admin b ∧ s'.config = some { c with fullyPaused := b } := by
  cases ix with
  | initializeConfig payer admin =>
    simp only [exec, initializeConfig, require_bind_eq_ok, hc] at h
    exact absurd h.1 (by simp)
  | initializeCounter owner =>
    simp only [exec, initializeCounter, require_bind_eq_ok, pure_eq_ok] at h
    obtain ⟨-, -, rfl⟩ := h
    exact .inl hc
  | openVault o m b =>
    obtain ⟨id, he⟩ := openVault_effect h
    exact .inl (by rw [he.state_eq, hc])
  | depositCollateral ctx n =>
    obtain ⟨_, _, _, _, he⟩ := depositCollateral_effect h
    exact .inl (by rw [he.state_eq, hc])
  | mintOtoken ctx n =>
    obtain ⟨_, _, _, _, he⟩ := mintOtoken_effect h
    exact .inl (by rw [he.state_eq, hc])
  | settleVault ctx =>
    obtain ⟨_, _, _, _, _, he⟩ := settleVault_effect h
    exact .inl (by rw [he.state_eq, hc])
  | redeem ctx n =>
    obtain ⟨_, _, _, _, _, _, he⟩ := redeem_effect h
    exact .inl (by rw [he.state_eq, hc])
  | emergencyWithdrawVault ctx =>
    obtain ⟨_, _, _, _, he⟩ := emergencyWithdrawVault_effect h
    exact .inl (by rw [he.state_eq, hc])
  | createOtokenInfo ctx =>
    obtain ⟨_, he⟩ := createOtokenInfo_effect h
    exact .inl (by rw [he.state_eq, hc])
  | setExpiryPrice ctx =>
    obtain ⟨_, he⟩ := setExpiryPrice_effect h
    exact .inl (by rw [he.state_eq, hc])
  | setPartialPauser admin pauser =>
    simp only [exec, setPartialPauser, adminConfig, loadConfig, bind_eq_ok, fromOption_eq_ok,
      require_eq_ok, pure_eq_ok, hc, Option.some.injEq] at h
    obtain ⟨_, ⟨_, rfl, _, rfl, rfl⟩, _, -, rfl⟩ := h
    exact .inr (.inl ⟨pauser, rfl, rfl⟩)
  | setPartiallyPaused caller paused =>
    simp only [exec, setPartiallyPaused, loadConfig, fromOption_bind_eq_ok, require_bind_eq_ok, pure_eq_ok,
      hc, Option.some.injEq, exists_eq_left'] at h
    obtain ⟨hcaller, rfl⟩ := h
    exact .inr (.inr (.inl ⟨caller, paused, rfl, hcaller, rfl⟩))
  | setFullyPaused admin paused =>
    simp only [exec, setFullyPaused, adminConfig, loadConfig, bind_eq_ok, fromOption_eq_ok, require_eq_ok,
      pure_eq_ok, hc, Option.some.injEq] at h
    obtain ⟨_, ⟨_, rfl, _, rfl, rfl⟩, rfl⟩ := h
    exact .inr (.inr (.inr ⟨paused, rfl, rfl⟩))

/-! ## Paused states -/

def State.FullyPaused (s : State) : Prop := ∃ c, s.config = some c ∧ c.fullyPaused = true

def State.PartiallyPaused (s : State) : Prop := ∃ c, s.config = some c ∧ c.partiallyPaused = true

/-- Closed to new business. -/
def State.Closed (s : State) : Prop := s.FullyPaused ∨ s.PartiallyPaused

/-- The administrator lifts the full pause. -/
def LiftsFull (t : Transition State Label) : Prop :=
  ∃ c, t.pre.config = some c ∧ t.label = .call (.setFullyPaused c.admin false)

/-- The administrator or the pauser lifts the partial pause. -/
def LiftsPartial (t : Transition State Label) : Prop :=
  ∃ c k, t.pre.config = some c ∧ (k = c.admin ∨ k = c.partialPauser) ∧
    t.label = .call (.setPartiallyPaused k false)

theorem Step.fullyPaused (h : Step D T s l s') (hp : s.FullyPaused) :
    s'.FullyPaused ∨ LiftsFull ⟨s, l, s'⟩ := by
  obtain ⟨c, hc, hfull⟩ := hp
  cases h with
  | call _ _ h =>
    rcases config_of_exec h hc with hc' | ⟨_, -, hc'⟩ | ⟨_, _, -, -, hc'⟩ | ⟨b, rfl, hc'⟩
    · exact .inl ⟨c, hc', hfull⟩
    · exact .inl ⟨_, hc', hfull⟩
    · exact .inl ⟨_, hc', hfull⟩
    · cases b with
      | true => exact .inl ⟨_, hc', rfl⟩
      | false => exact .inr ⟨c, hc, rfl⟩
  | _ => exact .inl ⟨c, hc, hfull⟩

theorem Step.partiallyPaused (h : Step D T s l s') (hp : s.PartiallyPaused) :
    s'.PartiallyPaused ∨ LiftsPartial ⟨s, l, s'⟩ := by
  obtain ⟨c, hc, hpart⟩ := hp
  cases h with
  | call _ _ h =>
    rcases config_of_exec h hc with hc' | ⟨_, -, hc'⟩ | ⟨k, b, rfl, hk, hc'⟩ | ⟨_, -, hc'⟩
    · exact .inl ⟨c, hc', hpart⟩
    · exact .inl ⟨_, hc', hpart⟩
    · cases b with
      | true => exact .inl ⟨_, hc', rfl⟩
      | false => exact .inr ⟨c, k, hc, hk, rfl⟩
    · exact .inl ⟨_, hc', hpart⟩
  | _ => exact .inl ⟨c, hc, hpart⟩

/-! ## Closed to new business -/

/-- A vault that at most was settled meanwhile. -/
def Vault.Held (v v' : Vault) : Prop := v' = v ∨ v.settled = false ∧ v' = { v with settled := true }

theorem Vault.Held.trans {v v' v'' : Vault} (h : v.Held v') (h' : v'.Held v'') : v.Held v'' := by
  rcases h with rfl | ⟨hv, rfl⟩
  · exact h'
  · rcases h' with rfl | ⟨hv', -⟩
    · exact .inr ⟨hv, rfl⟩
    · exact absurd hv' (by simp)

/-- Nothing was added: the same vaults, some of them settled, and no more oTokens of any series. -/
structure State.Shrinks (D : Deployment) (s s' : State) : Prop where
  vault : ∀ k v, s.vaults.lookup k = some v → ∃ v', s'.vaults.lookup k = some v' ∧ v.Held v'
  no_vault : ∀ k, s.vaults.lookup k = none → s'.vaults.lookup k = none
  supply : ∀ o, D.IsOtokenMint o → s'.ledger.supply o ≤ s.ledger.supply o

theorem State.Shrinks.refl (s : State) : s.Shrinks D s where
  vault _ v hv := ⟨v, hv, .inl rfl⟩
  no_vault _ hv := hv
  supply _ _ := le_rfl

theorem State.Shrinks.trans {s'' : State} (h : s.Shrinks D s') (h' : s'.Shrinks D s'') :
    s.Shrinks D s'' where
  vault k v hv := by
    obtain ⟨v', hv', hheld⟩ := h.vault k v hv
    obtain ⟨v'', hv'', hheld'⟩ := h'.vault k v' hv'
    exact ⟨v'', hv'', hheld.trans hheld'⟩
  no_vault k hk := h'.no_vault k (h.no_vault k hk)
  supply o ho := (h'.supply o ho).trans (h.supply o ho)

/-- What closed controllers do not do. -/
theorem Step.not_business (h : Step D T s l s') (hp : s.Closed) :
    (∀ o m b, l ≠ .call (.openVault o m b)) ∧ (∀ ctx n, l ≠ .call (.depositCollateral ctx n)) ∧
      ∀ ctx n, l ≠ .call (.mintOtoken ctx n) := by
  cases h with
  | @call _ ix _ _ h =>
    have hstopped : ∃ c, s.config = some c ∧ (c.fullyPaused = true ∨ c.partiallyPaused = true) := by
      rcases hp with ⟨c, hc, hfull⟩ | ⟨c, hc, hpart⟩
      · exact ⟨c, hc, .inl hfull⟩
      · exact ⟨c, hc, .inr hpart⟩
    obtain ⟨c, hc, hpaused⟩ := hstopped
    have hnot := not_stopped_of_exec h hc
    refine ⟨?_, ?_, ?_⟩
    · rintro o m b ⟨⟩
      exact hnot hpaused
    · rintro ctx n ⟨⟩
      exact hnot hpaused
    · rintro ctx n ⟨⟩
      exact hnot hpaused
  | _ => simp

theorem Step.not_claims (h : Step D T s l s') (hp : s.FullyPaused) :
    (∀ ctx, l ≠ .call (.settleVault ctx)) ∧ ∀ ctx n, l ≠ .call (.redeem ctx n) := by
  cases h with
  | @call _ ix _ _ h =>
    obtain ⟨c, hc, hfull⟩ := hp
    have hnot := not_stopped_of_exec h hc
    constructor
    · rintro ctx ⟨⟩
      exact hnot hfull
    · rintro ctx n ⟨⟩
      exact hnot hfull
  | _ => simp

theorem State.Shrinks.of_settled {k : VaultKey} {v : Vault} (hv : s.vaults.lookup k = some v)
    (hset : v.settled = false) (ht : s'.vaults = s.vaults.insert k { v with settled := true })
    (hsupply : ∀ o, D.IsOtokenMint o → s'.ledger.supply o ≤ s.ledger.supply o) : s.Shrinks D s' where
  vault j w hw := by
    rw [ht]
    by_cases hjk : j = k
    · subst hjk
      obtain rfl := Option.some.inj (hv.symm.trans hw)
      exact ⟨_, Finmap.lookup_insert _, .inr ⟨hset, rfl⟩⟩
    · exact ⟨w, by rw [Finmap.lookup_insert_of_ne _ hjk, hw], .inl rfl⟩
  no_vault j hj := by
    have hjk : j ≠ k := by
      rintro rfl
      exact nomatch hv.symm.trans hj
    rw [ht, Finmap.lookup_insert_of_ne _ hjk, hj]
  supply := hsupply

theorem State.Shrinks.of_vaults_eq (ht : s'.vaults = s.vaults)
    (hsupply : ∀ o, D.IsOtokenMint o → s'.ledger.supply o ≤ s.ledger.supply o) : s.Shrinks D s' where
  vault k v hv := ⟨v, by rw [ht, hv], .inl rfl⟩
  no_vault k hk := by rw [ht, hk]
  supply := hsupply

theorem Step.shrinks (hok : SeriesOk D s) (h : Step D T s l s') (hp : s.Closed) : s.Shrinks D s' := by
  obtain ⟨hopen, hdeposit, hmint⟩ := h.not_business hp
  have hmove := h.move
  have hsupply : ∀ o, D.IsOtokenMint o → s'.ledger.supply o ≤ s.ledger.supply o := by
    intro o ho
    have heq := hmove.supply_eq ho fun _ _ hx ↦ hok.bound ho hx
    have hnone : l.mintedOf o = 0 := by
      cases l with
      | call ix =>
        cases ix with
        | mintOtoken ctx n => exact absurd rfl (hmint ctx n)
        | _ => rfl
      | _ => rfl
    omega
  cases hmove with
  | opened h => exact absurd rfl (hopen _ _ _)
  | deposited _ h => exact absurd rfl (hdeposit _ _)
  | minted h => exact absurd rfl (hmint _ _)
  | settled h => exact .of_settled h.vault_eq h.unsettled (by rw [h.state_eq]) hsupply
  | withdrawn h => exact .of_settled h.vault_eq h.unsettled (by rw [h.state_eq]) hsupply
  | administered _ h => exact .of_vaults_eq h.vaults_eq hsupply
  | redeemed _ h => exact .of_vaults_eq (by rw [h.state_eq]) hsupply
  | registered _ h => exact .of_vaults_eq (by rw [h.state_eq]) hsupply
  | priced h => exact .of_vaults_eq (by rw [h.state_eq]) hsupply
  | token _ => exact .of_vaults_eq rfl hsupply
  | tick _ => exact .of_vaults_eq rfl hsupply
  | created _ _ => exact .of_vaults_eq rfl hsupply

theorem shrinks_of_run (hrun : Run (Step D T) s tr s') (hw : WellFormed D s) (hok : SeriesOk D s)
    (hl : ∀ t ∈ tr, t.pre.Closed ∧ t.label.BindsController D) : s.Shrinks D s' := by
  have hall : (WellFormed D s' ∧ SeriesOk D s') ∧ s.Shrinks D s' := by
    refine Run.invariant_of (I := fun u ↦ (WellFormed D u ∧ SeriesOk D u) ∧ s.Shrinks D u)
      (Q := fun t ↦ t.pre.Closed ∧ t.label.BindsController D) ⟨⟨hw, hok⟩, .refl s⟩ ?_ hrun hl
    rintro u l u' ⟨⟨huw, huok⟩, hu⟩ hs ⟨hclosed, hbind⟩
    exact ⟨⟨hs.move.wellFormed huw, hs.move.seriesOk huw huok hbind⟩, hu.trans (hs.shrinks huok hclosed)⟩
  exact hall.2

/-- **A pause holds until it is lifted**, the full one by the administrator, the partial one by the
administrator or the pauser; and as long as either of them holds, nothing is added: no vault is opened, the
vaults that there are keep all but that they may be settled, and no series grows. -/
theorem pause_holds (hrun : Run (Step D T) s₀ tr s) (h₀ : Initial D s₀)
    (hbind : ∀ t ∈ tr, t.label.BindsController D) (hrun' : Run (Step D T) s tr' s')
    (hbind' : ∀ t ∈ tr', t.label.BindsController D) :
    (s.FullyPaused → (∀ t ∈ tr', ¬LiftsFull t) → s'.FullyPaused ∧ ∀ t ∈ tr', t.pre.FullyPaused) ∧
    (s.PartiallyPaused → (∀ t ∈ tr', ¬LiftsPartial t) →
      s'.PartiallyPaused ∧ ∀ t ∈ tr', t.pre.PartiallyPaused) ∧
    ((∀ t ∈ tr', t.pre.Closed) → s.Shrinks D s') := by
  refine ⟨fun hp hl ↦ ?_, fun hp hl ↦ ?_, fun hclosed ↦ ?_⟩
  · exact Run.throughout (I := State.FullyPaused) (Q := fun t ↦ ¬LiftsFull t) hp
      (fun _ _ _ hu hs hq ↦ (hs.fullyPaused hu).resolve_right hq) hrun' hl
  · exact Run.throughout (I := State.PartiallyPaused) (Q := fun t ↦ ¬LiftsPartial t) hp
      (fun _ _ _ hu hs hq ↦ (hs.partiallyPaused hu).resolve_right hq) hrun' hl
  · exact shrinks_of_run hrun' (wellFormed_of_run hrun h₀) (seriesOk_of_run hrun h₀ hbind)
      fun t ht ↦ ⟨hclosed t ht, hbind' t ht⟩

/-- User `1` deposits and mints, and pauses the controller. -/
def samplePaused : List Action :=
  sampleSetup ++ [sampleDeposit 0 12 8, sampleMint 0 200, .call (.setFullyPaused 1 true)]

/-- Time passes, and it takes back what it deposited. -/
def sampleExit : List Action :=
  [.tick 100, .call (.emergencyWithdrawVault
    ⟨⟨1, 0⟩, 12, 10, 11, sampleDeployment.poolVaultAuth 10, 1⟩)]

/-- The state after that. -/
def sampleWithdrawn : State :=
  Run.playState (Action.next sampleDeployment splToken) (sampleRun samplePaused) sampleExit

theorem samplePaused_run : Run (Step sampleDeployment splToken) sampleState (sampleTrace samplePaused)
    (sampleRun samplePaused) := sampleRun_run (by decide +kernel) (by decide +kernel)

theorem sampleExit_run : Run (Step sampleDeployment splToken) (sampleRun samplePaused)
    (Run.playTrace (Action.next sampleDeployment splToken) Action.label (sampleRun samplePaused)
      sampleExit) sampleWithdrawn := by
  have hall : sampleExit.all Action.bySampleUser = true := by decide +kernel
  exact run_of_script (fun a h ↦ Action.allowed_of_bySampleUser (List.all_eq_true.mp hall a h))
    (by decide +kernel)

theorem sampleExit_not_lifts {t : Transition State Label}
    (ht : t ∈ Run.playTrace (Action.next sampleDeployment splToken) Action.label (sampleRun samplePaused)
      sampleExit) : ¬LiftsFull t := by
  have hlabel : ∀ admin, t.label ≠ .call (.setFullyPaused admin false) := by
    refine Run.label_of_mem_playTrace _ _
      (P := fun l ↦ ∀ admin, l ≠ .call (.setFullyPaused admin false)) ?_ ht
    simp [sampleExit, Action.label]
  rintro ⟨c, -, hl⟩
  exact hlabel _ hl

theorem pause_holds_sample : sampleWithdrawn.FullyPaused ∧
    (sampleRun samplePaused).Shrinks sampleDeployment sampleWithdrawn := by
  have hpaused : (sampleRun samplePaused).FullyPaused := ⟨⟨1, 0, false, true⟩, by decide +kernel, rfl⟩
  obtain ⟨hfull, -, hshrinks⟩ := pause_holds samplePaused_run sampleState_initial (by decide +kernel)
    sampleExit_run (by decide +kernel)
  obtain ⟨hend, hpre⟩ := hfull hpaused fun _ ↦ sampleExit_not_lifts
  exact ⟨hend, hshrinks fun t ht ↦ .inl (hpre t ht)⟩

/-! ## Leaving -/

/-- Events of a full pause. -/
def Event.OfPause : Event → Prop
  | .emergencyWithdraw .. => True
  | e => e.IsAdministrative

theorem Step.log_of_fullyPaused (h : Step D T s l s') (hp : s.FullyPaused) :
    ∃ es, s'.log = s.log ++ es ∧ ∀ e ∈ es, e.OfPause := by
  obtain ⟨hopen, hdeposit, hmint⟩ := h.not_business (.inl hp)
  obtain ⟨hsettle, hredeem⟩ := h.not_claims hp
  have hnone : s'.log = s.log → ∃ es, s'.log = s.log ++ es ∧ ∀ e ∈ es, e.OfPause :=
    fun heq ↦ ⟨[], by rw [heq, List.append_nil], by simp⟩
  have hmove := h.move
  cases hmove with
  | opened h => exact absurd rfl (hopen _ _ _)
  | deposited _ h => exact absurd rfl (hdeposit _ _)
  | minted h => exact absurd rfl (hmint _ _)
  | settled h => exact absurd rfl (hsettle _)
  | redeemed _ h => exact absurd rfl (hredeem _ _)
  | administered _ h =>
    obtain ⟨es, hlog, hes⟩ := h.log_eq
    refine ⟨es, hlog, fun e he ↦ ?_⟩
    have hadmin := hes e he
    cases e <;> first | exact hadmin | exact absurd hadmin id
  | withdrawn h => exact ⟨_, by rw [h.state_eq], by simp [Event.OfPause]⟩
  | registered _ h => exact hnone (by rw [h.state_eq])
  | priced h => exact hnone (by rw [h.state_eq])
  | token _ => exact hnone rfl
  | tick _ => exact hnone rfl
  | created _ _ => exact hnone rfl

/-- What is released comes off the collateral of unsettled vaults. -/
theorem Step.unsettledCollateral_eq (hw : WellFormed D s) (h : Step D T s l s') (hp : s.FullyPaused)
    (M : Pubkey) :
    unsettledCollateral s' M + releasedFrom M ⟨s, l, s'⟩ = unsettledCollateral s M := by
  obtain ⟨hopen, hdeposit, hmint⟩ := h.not_business (.inl hp)
  obtain ⟨hsettle, hredeem⟩ := h.not_claims hp
  have hbooks := h.move.obligations_eq hw M
  rw [reservedPayouts_eq hw h.move hsettle] at hbooks
  have hnone : depositedInto M ⟨s, l, s'⟩ = 0 := by
    unfold depositedInto
    split
    · rename_i heq
      exact absurd heq (hdeposit _ _)
    · rfl
  omega

/-- An account of the pool loses nothing but what is released. -/
theorem Step.poolAmount_of_fullyPaused (hT : T.Plain) (hw : WellFormed D s) (h : Step D T s l s')
    (hp : s.FullyPaused) :
    poolAmount D s M p ≤ poolAmount D s' M p + releasedFrom M ⟨s, l, s'⟩ := by
  obtain ⟨hopen, hdeposit, hmint⟩ := h.not_business (.inl hp)
  obtain ⟨hsettle, hredeem⟩ := h.not_claims hp
  have hinto : l.DepositsTo M p := by
    unfold Label.DepositsTo
    split
    · exact absurd rfl (hdeposit _ _)
    · trivial
  have hpaid : paidBy M ⟨s, l, s'⟩ = 0 := by
    unfold paidBy
    split
    · rename_i heq
      exact absurd heq (hredeem _ _)
    · rfl
  have hamount := h.move.poolAmount_le hT hw.undelegated hinto
  omega

/-- The accounts passed to `emergency_withdraw_vault` fit, and the vault is unsettled. What the pool has is
not asked. -/
structure EmergencyWithdrawVault.Presented (D : Deployment) (s : State) (ctx : EmergencyWithdrawVault)
    (v : Vault) : Prop where
  vault_eq : s.vaults.lookup ctx.vault = some v
  owner_eq : v.owner = ctx.owner
  unsettled : v.settled = false
  pool : isPoolAccount D s v.collateralMint ctx.poolTokenAccount = true
  beneficiary : ∃ b, s.ledger.accounts.lookup ctx.beneficiaryTokenAccount = some b ∧
    b.mint = v.collateralMint ∧ b.owner = v.beneficiary
  mint : ∃ x, s.ledger.mints.lookup v.collateralMint = some x
  mint_key : ctx.collateralMintAccount = v.collateralMint
  authority : ctx.poolVaultAuthority = D.poolVaultAuth v.collateralMint

theorem collateral_le_unsettled {k : VaultKey} {v : Vault} (hv : s.vaults.lookup k = some v)
    (hset : v.settled = false) : v.collateralAmount ≤ unsettledCollateral s v.collateralMint := by
  have hle := Store.le_total (fun _ w ↦ if w.settled = false ∧ w.collateralMint = v.collateralMint then
    w.collateralAmount else 0) hv
  rwa [if_pos ⟨hset, rfl⟩] at hle

theorem EmergencyWithdrawVault.Presented.ready {ctx : EmergencyWithdrawVault} {v : Vault}
    (hp : s.FullyPaused) (h : ctx.Presented D s v) (hcover : unsettledCollateral s v.collateralMint ≤
      poolAmount D s v.collateralMint ctx.poolTokenAccount) : ctx.Ready D s v := by
  obtain ⟨a, ha, hao, ham⟩ := isPoolAccount_iff.mp h.pool
  have hle := (collateral_le_unsettled h.vault_eq h.unsettled).trans hcover
  rw [poolAmount, if_pos h.pool, Ledger.amount_eq ha] at hle
  exact {
    config := hp
    vault_eq := h.vault_eq
    owner_eq := h.owner_eq
    unsettled := h.unsettled
    pool := ⟨a, ha, ham, hao, hle⟩
    beneficiary := h.beneficiary
    mint := h.mint
    mint_key := h.mint_key
    authority := h.authority }

theorem amount_of_emergencyWithdrawVault (hT : T.Plain) {ctx : EmergencyWithdrawVault} {v : Vault}
    (h : emergencyWithdrawVault D T ctx s = .ok s') (hv : s.vaults.lookup ctx.vault = some v) :
    s'.ledger.amount ctx.beneficiaryTokenAccount +
        (if ctx.beneficiaryTokenAccount = ctx.poolTokenAccount then v.collateralAmount else 0) =
      s.ledger.amount ctx.beneficiaryTokenAccount + v.collateralAmount := by
  obtain ⟨v', pool, ben, L, he⟩ := emergencyWithdrawVault_effect h
  obtain rfl := Option.some.inj (hv.symm.trans he.vault_eq)
  obtain ⟨d, ht⟩ := he.transfer
  have hamt := amount_of_transferIfPositive hT ht ctx.beneficiaryTokenAccount
  rw [if_pos rfl] at hamt
  rw [he.state_eq]
  exact hamt

/-- Paused, and the account covers the unsettled vaults. -/
structure Sheltered (D : Deployment) (M p : Pubkey) (s : State) : Prop where
  wellFormed : WellFormed D s
  paused : s.FullyPaused
  covers : unsettledCollateral s M ≤ poolAmount D s M p

theorem Step.sheltered (hT : T.Plain) (h : Step D T s l s') (hs : Sheltered D M p s)
    (hl : ¬LiftsFull ⟨s, l, s'⟩) : Sheltered D M p s' where
  wellFormed := h.move.wellFormed hs.wellFormed
  paused := (h.fullyPaused hs.paused).resolve_right hl
  covers := by
    have hbooks := h.unsettledCollateral_eq hs.wellFormed hs.paused M
    have hamount := h.poolAmount_of_fullyPaused (M := M) (p := p) hT hs.wellFormed hs.paused
    have hcovers := hs.covers
    omega

/-- **A full pause can be waited out.** If an account of the pool covers the unsettled vaults of `M` when the
pause begins, then until it is lifted, whatever happens and whoever leaves: nothing is recorded but
withdrawals and administration; what is released is exactly what comes off the collateral of unsettled
vaults; and every owner of one can still withdraw from the account, and the beneficiary gets all of its
collateral. -/
theorem pause_waited_out (hT : T.Plain) (hlive : T.Live) (hrun : Run (Step D T) s₀ tr s)
    (h₀ : Initial D s₀) (hp : s.FullyPaused) (hcover : unsettledCollateral s M ≤ poolAmount D s M p)
    (hrun' : Run (Step D T) s tr' s') (hl : ∀ t ∈ tr', ¬LiftsFull t) :
    (∃ es, s'.log = s.log ++ es ∧ ∀ e ∈ es, e.OfPause) ∧
    unsettledCollateral s' M + Run.history (releasedFrom M) tr' = unsettledCollateral s M ∧
    unsettledCollateral s' M ≤ poolAmount D s' M p ∧
    ∀ ctx v, EmergencyWithdrawVault.Presented D s' ctx v → v.collateralMint = M →
      ctx.poolTokenAccount = p → ∃ u, emergencyWithdrawVault D T ctx s' = .ok u ∧
        u.ledger.amount ctx.beneficiaryTokenAccount +
            (if ctx.beneficiaryTokenAccount = p then v.collateralAmount else 0) =
          s'.ledger.amount ctx.beneficiaryTokenAccount + v.collateralAmount := by
  have hstart : Sheltered D M p s := ⟨wellFormed_of_run hrun h₀, hp, hcover⟩
  obtain ⟨hend, hpre⟩ := Run.throughout (I := Sheltered D M p) (Q := fun t ↦ ¬LiftsFull t) hstart
    (fun _ _ _ hu hs hq ↦ hs.sheltered hT hu hq) hrun' hl
  refine ⟨?_, ?_, hend.covers, ?_⟩
  · refine Run.invariant_of (I := fun u ↦ ∃ es, u.log = s.log ++ es ∧ ∀ e ∈ es, e.OfPause)
      (Q := fun t ↦ t.pre.FullyPaused) ⟨[], (List.append_nil _).symm, by simp⟩ ?_ hrun'
      fun t ht ↦ (hpre t ht).paused
    rintro u m u' ⟨es, hlog, hes⟩ hs hpaused
    obtain ⟨es', hlog', hes'⟩ := hs.log_of_fullyPaused hpaused
    refine ⟨es ++ es', by rw [hlog', hlog, List.append_assoc], fun e he ↦ ?_⟩
    exact (List.mem_append.mp he).elim (hes e) (hes' e)
  · have hacc := Run.accounting (I := WellFormed D) (Q := fun t ↦ t.pre.FullyPaused)
      (fun u ↦ unsettledCollateral u M) (fun _ ↦ 0) (fun _ ↦ 0) (releasedFrom M) hstart.wellFormed
      (fun _ _ _ hw hs _ ↦ hs.move.wellFormed hw)
      (fun u m u' hw hs hq ↦ by
        have hbooks := hs.unsettledCollateral_eq hw hq M
        omega) hrun' fun t ht ↦ (hpre t ht).paused
    simp only [Run.history_zero] at hacc
    omega
  · rintro ctx v hpresented rfl rfl
    have hready := hpresented.ready hend.paused hend.covers
    have hkey := (hend.wellFormed.vault hpresented.vault_eq).key
    obtain ⟨u, hu⟩ := emergencyWithdrawVault_succeeds hlive hend.wellFormed.conserved
      hend.wellFormed.undelegated hkey hready
    exact ⟨u, hu, amount_of_emergencyWithdrawVault hT hu hpresented.vault_eq⟩

theorem pause_waited_out_sample :
    unsettledCollateral sampleWithdrawn 10 ≤ poolAmount sampleDeployment sampleWithdrawn 10 12 ∧
      unsettledCollateral sampleWithdrawn 10 + 8 = unsettledCollateral (sampleRun samplePaused) 10 := by
  have hpaused : (sampleRun samplePaused).FullyPaused := ⟨⟨1, 0, false, true⟩, by decide +kernel, rfl⟩
  obtain ⟨-, hbooks, hcovers, -⟩ := pause_waited_out (M := 10) (p := 12) splToken_plain splToken_live
    samplePaused_run sampleState_initial hpaused (by decide +kernel) sampleExit_run
    fun _ ↦ sampleExit_not_lifts
  refine ⟨hcovers, ?_⟩
  have hreleased : Run.history (releasedFrom 10) (Run.playTrace
      (Action.next sampleDeployment splToken) Action.label (sampleRun samplePaused)
        sampleExit) = 8 := by
    decide +kernel
  rwa [hreleased] at hbooks

end Controller

end OptionsProtocol
