import OptionsProtocol.Controller.Effects
import OptionsProtocol.Library.Trace
import OptionsProtocol.Runtime.Spl

/-!
# The controller as a transition system

A run interleaves four kinds of step: an instruction signed by anybody the controller does not sign
for, somebody else's use of the token program, the passing of time, and the factory creating the
mint of a new oToken. A step records nothing but which of these it was; what it did is the
difference of the two states.

`Step.move` reads a step as one of twelve moves, each with everything the instruction established.
It is the only place where runs meet instructions: every invariant is a case analysis on `Move`.
-/

namespace OptionsProtocol

namespace Controller

/-- The kinds of step. -/
inductive Label where
  | call (ix : Instruction)
  | token
  | tick
  | createOtoken (mint authority : Pubkey)

/-- Accounts of other programs passed to the instruction are really theirs: the factory records
only mints it created. It derives a mint's address from the terms of the series, so that the mint is
not the collateral of its own series. -/
def Instruction.Genuine (D : Deployment) : Instruction → Prop
  | .createOtokenInfo ctx =>
    D.IsOtokenMint ctx.factoryOtoken.mint ∧ ctx.factoryOtoken.collateral ≠ ctx.factoryOtoken.mint
  | _ => True

/-- One step. -/
inductive Step (D : Deployment) (T : TokenProgram) : State → Label → State → Prop
  | call {s s' : State} {ix : Instruction} (hsigner : ¬D.IsControllerPda ix.signer)
      (hgenuine : ix.Genuine D) (h : exec D T ix s = .ok s') : Step D T s (.call ix) s'
  | token {s : State} {L : Ledger} (h : s.ledger.Rely D.IsControllerPda D.IsOtokenMint L) :
      Step D T s .token { s with ledger := L }
  | tick {s : State} {t : ℤ} (h : s.clock ≤ t) : Step D T s .tick { s with clock := t }
  | createOtoken {s : State} {m auth : Pubkey} (hm : D.IsOtokenMint m)
      (h : s.ledger.mints.lookup m = none) :
      Step D T s (.createOtoken m auth) { s with
        ledger := { s.ledger with
          mints := s.ledger.mints.insert m ⟨some auth, 0, 8⟩ } }

/-- A deployment starts without accounts of its own, on a ledger with an ordinary history: tokens
are conserved, nobody can hand out allowances for the controller's addresses, and the mints of
future oTokens do not exist. -/
structure Initial (D : Deployment) (s : State) : Prop where
  config : s.config = none
  vaultCounters : s.vaultCounters = ∅
  vaults : s.vaults = ∅
  otokenInfos : s.otokenInfos = ∅
  log : s.log = []
  conserved : s.ledger.Conserved
  undelegated : s.ledger.Undelegated D.IsControllerPda
  mint_absent : ∀ m, D.IsOtokenMint m → s.ledger.mints.lookup m = none

/-! ## Moves -/

/-- What a step did. -/
inductive Move (D : Deployment) (T : TokenProgram) (s : State) : Label → State → Prop
  | administered {ix : Instruction} {s' : State} (hix : ix.IsAdministrative)
      (h : Administered s s') :
      Move D T s (.call ix) s'
  | opened {o c b : Pubkey} {id : ℕ} {s' : State} (h : OpenVault.Effect s o c b id s') :
      Move D T s (.call (.openVault o c b)) s'
  | deposited {ctx : DepositCollateral} {n : ℕ} {v : Vault} {user pool : TokenAccount} {L : Ledger}
      {s' : State} (hsigner : ¬D.IsControllerPda ctx.owner)
      (h : DepositCollateral.Effect D T s ctx n v user pool L s') :
      Move D T s (.call (.depositCollateral ctx n)) s'
  | minted {ctx : MintOtoken} {n : ℕ} {v : Vault} {info : OTokenInfo} {dest : TokenAccount}
      {L : Ledger} {s' : State} (h : MintOtoken.Effect D T s ctx n v info dest L s') :
      Move D T s (.call (.mintOtoken ctx n)) s'
  | settled {ctx : SettleVault} {v : Vault} {info : OTokenInfo} {pool ben : TokenAccount}
      {L : Ledger} {s' : State} (h : SettleVault.Effect D T s ctx v info pool ben L s') :
      Move D T s (.call (.settleVault ctx)) s'
  | redeemed {ctx : Redeem} {n : ℕ} {info : OTokenInfo} {otoken coll pool : TokenAccount}
      {B L : Ledger} {s' : State} (hsigner : ¬D.IsControllerPda ctx.redeemer)
      (h : Redeem.Effect D T s ctx n info otoken coll pool B L s') :
      Move D T s (.call (.redeem ctx n)) s'
  | withdrawn {ctx : EmergencyWithdrawVault} {v : Vault} {pool ben : TokenAccount} {L : Ledger}
      {s' : State} (h : EmergencyWithdrawVault.Effect D T s ctx v pool ben L s') :
      Move D T s (.call (.emergencyWithdrawVault ctx)) s'
  | registered {ctx : CreateOTokenInfo} {info : OTokenInfo} {s' : State}
      (hm : D.IsOtokenMint ctx.otokenMint ∧ info.collateralMint ≠ ctx.otokenMint)
      (h : CreateOTokenInfo.Effect s ctx info s') :
      Move D T s (.call (.createOtokenInfo ctx)) s'
  | priced {ctx : SetExpiryPrice} {info : OTokenInfo} {s' : State}
      (h : SetExpiryPrice.Effect s ctx info s') : Move D T s (.call (.setExpiryPrice ctx)) s'
  | token {L : Ledger} (h : s.ledger.Rely D.IsControllerPda D.IsOtokenMint L) :
      Move D T s .token { s with ledger := L }
  | tick {t : ℤ} (h : s.clock ≤ t) : Move D T s .tick { s with clock := t }
  | created {m auth : Pubkey} (hm : D.IsOtokenMint m) (h : s.ledger.mints.lookup m = none) :
      Move D T s (.createOtoken m auth) { s with
        ledger := { s.ledger with mints := s.ledger.mints.insert m ⟨some auth, 0, 8⟩ } }

variable {D : Deployment} {T : TokenProgram} {s s' s₀ : State} {l : Label}
  {tr : List (Transition State Label)}

/-- **Every step is one of the moves.** -/
theorem Step.move (h : Step D T s l s') : Move D T s l s' := by
  cases h with
  | token h => exact .token h
  | tick h => exact .tick h
  | createOtoken hm h => exact .created hm h
  | @call _ ix hsigner hgenuine h =>
    cases ix with
    | openVault o c b =>
      obtain ⟨id, he⟩ := openVault_effect h
      exact .opened he
    | depositCollateral ctx n =>
      obtain ⟨v, user, pool, L, he⟩ := depositCollateral_effect h
      exact .deposited hsigner he
    | mintOtoken ctx n =>
      obtain ⟨v, info, dest, L, he⟩ := mintOtoken_effect h
      exact .minted he
    | settleVault ctx =>
      obtain ⟨v, info, pool, ben, L, he⟩ := settleVault_effect h
      exact .settled he
    | redeem ctx n =>
      obtain ⟨info, otoken, coll, pool, B, L, he⟩ := redeem_effect h
      exact .redeemed hsigner he
    | emergencyWithdrawVault ctx =>
      obtain ⟨v, pool, ben, L, he⟩ := emergencyWithdrawVault_effect h
      exact .withdrawn he
    | createOtokenInfo ctx =>
      obtain ⟨info, he⟩ := createOtokenInfo_effect h
      refine .registered ⟨he.factory_mint ▸ hgenuine.1, ?_⟩ he
      rw [he.collateral_eq, ← he.factory_mint]
      exact hgenuine.2
    | setExpiryPrice ctx =>
      obtain ⟨info, he⟩ := setExpiryPrice_effect h
      exact .priced he
    | initializeConfig _ _ => exact .administered trivial (administered_of_exec h trivial)
    | initializeCounter _ => exact .administered trivial (administered_of_exec h trivial)
    | setPartialPauser _ _ => exact .administered trivial (administered_of_exec h trivial)
    | setPartiallyPaused _ _ => exact .administered trivial (administered_of_exec h trivial)
    | setFullyPaused _ _ => exact .administered trivial (administered_of_exec h trivial)

/-! ## Scripts -/

/-- Actions that concrete runs are made of. -/
inductive Action where
  | call (ix : Instruction)
  | openAccount (k mint owner : Pubkey)
  | tick (t : ℤ)
  | createOtoken (mint authority : Pubkey)

def Action.label : Action → Label
  | .call ix => .call ix
  | .openAccount .. => .token
  | .tick _ => .tick
  | .createOtoken m auth => .createOtoken m auth

/-- Carry out an action. -/
def Action.next (D : Deployment) (T : TokenProgram) : Action → State → Option State
  | .call ix, s => (exec D T ix s).toOption
  | .openAccount k mint owner, s =>
    if s.ledger.accounts.lookup k = none then
      some { s with ledger := { s.ledger with
        accounts := s.ledger.accounts.insert k ⟨mint, owner, 0, none, 0⟩ } }
    else none
  | .tick t, s => if s.clock ≤ t then some { s with clock := t } else none
  | .createOtoken m auth, s =>
    if s.ledger.mints.lookup m = none then
      some { s with ledger := { s.ledger with
        mints := s.ledger.mints.insert m ⟨some auth, 0, 8⟩ } }
    else none

/-- The action is open to somebody other than the controller. -/
def Action.Allowed (D : Deployment) : Action → Prop
  | .call ix => ¬D.IsControllerPda ix.signer ∧ ix.Genuine D
  | .createOtoken m _ => D.IsOtokenMint m
  | _ => True

theorem Action.step {a : Action} (ha : a.Allowed D) (h : a.next D T s = some s') :
    Step D T s a.label s' := by
  cases a with
  | call ix =>
    rw [Action.next] at h
    cases hx : exec D T ix s with
    | error e => rw [hx] at h; exact absurd h (by simp [Except.toOption])
    | ok s'' =>
      rw [hx, Except.toOption, Option.some.injEq] at h
      subst h
      exact .call ha.1 ha.2 hx
  | openAccount k mint owner =>
    obtain ⟨hk, hs⟩ := Option.ite_none_right_eq_some.mp h
    obtain rfl := Option.some.inj hs
    exact .token (Ledger.Rely.open mint owner hk)
  | tick t =>
    obtain ⟨ht, hs⟩ := Option.ite_none_right_eq_some.mp h
    obtain rfl := Option.some.inj hs
    exact .tick ht
  | createOtoken m auth =>
    obtain ⟨hm, hs⟩ := Option.ite_none_right_eq_some.mp h
    obtain rfl := Option.some.inj hs
    exact .createOtoken ha hm

theorem run_of_script {as : List Action} (ha : ∀ a ∈ as, a.Allowed D)
    (hplay : Run.playable (Action.next D T) s as = true) :
    Run (Step D T) s (Run.playTrace (Action.next D T) Action.label s as)
      (Run.playState (Action.next D T) s as) :=
  Run.of_script _ _ (fun a h _ _ hn ↦ Action.step (ha a h) hn) hplay

section Sample

/-- A ledger with one asset, whose mint is `10`: user `1` has a million units of it in account `11`,
and `12` and `13` are two empty accounts of its pool. -/
def sampleLedger : Ledger where
  accounts := ((Finmap.insert 11 ⟨10, 1, 1000000, none, 0⟩ ∅).insert 12
    ⟨10, sampleDeployment.poolVaultAuth 10, 0, none, 0⟩).insert 13
    ⟨10, sampleDeployment.poolVaultAuth 10, 0, none, 0⟩
  mints := Finmap.insert 10 ⟨none, 1000000, 6⟩ ∅

def sampleState : State where
  clock := 0
  ledger := sampleLedger
  config := none
  vaultCounters := ∅
  vaults := ∅
  otokenInfos := ∅
  log := []

theorem sampleState_initial : Initial sampleDeployment sampleState where
  config := rfl
  vaultCounters := rfl
  vaults := rfl
  otokenInfos := rfl
  log := rfl
  conserved := by
    refine Ledger.conserved_of_mints (fun k a ha ↦ ?_) fun m x hx ↦ ?_
    · simp only [sampleState, sampleLedger, Store.lookup_insert_eq_some] at ha
      rcases ha with ⟨-, rfl⟩ | ⟨-, ⟨-, rfl⟩ | ⟨-, ⟨-, rfl⟩ | ⟨-, ha⟩⟩⟩
      · decide
      · decide
      · decide
      · exact absurd ha (by simp)
    · simp only [sampleState, sampleLedger, Store.lookup_insert_eq_some] at hx
      rcases hx with ⟨rfl, rfl⟩ | ⟨-, hx⟩
      · exact ⟨by decide +kernel, by decide⟩
      · exact absurd hx (by simp)
  undelegated k a ha _ := by
    simp only [sampleState, sampleLedger, Store.lookup_insert_eq_some] at ha
    rcases ha with ⟨-, rfl⟩ | ⟨-, ⟨-, rfl⟩ | ⟨-, ⟨-, rfl⟩ | ⟨-, ha⟩⟩⟩
    · rfl
    · rfl
    · rfl
    · exact absurd ha (by simp)
  mint_absent m hm := by
    have hne : m ≠ 10 := by
      rintro rfl
      exact absurd hm.1 (by decide)
    rw [sampleState, sampleLedger, Finmap.lookup_insert_of_ne _ hne, Finmap.lookup_empty]

/-- A covered-call series on the asset: strike `5`, expiry `100`, mint `20`. -/
def sampleSeries : CreateOTokenInfo where
  otokenMint := 20
  factoryOtoken := ⟨10, 15, 10, 5, 100, false, 20⟩
  collateralMintAccount := 10
  whitelistedOtoken := ⟨20, true⟩
  factoryOperator := none
  admin := 1

/-- User `1` administers the controller, registers the series, and opens two vaults; account `31` is
its account for the oTokens. -/
def sampleSetup : List Action :=
  [.call (.initializeConfig 1 1), .createOtoken 20 sampleDeployment.controllerConfig,
   .openAccount 31 20 1, .call (.createOtokenInfo sampleSeries), .call (.initializeCounter 1),
   .call (.openVault 1 10 1), .call (.openVault 1 10 1)]

/-- User `1` deposits into its vault `id`, through one of the accounts of the pool. -/
def sampleDeposit (id : ℕ) (pool : Pubkey) (amount : ℕ) : Action :=
  .call (.depositCollateral
    ⟨⟨1, id⟩, 11, 10, pool, sampleDeployment.poolVaultAuth 10, 1⟩ amount)

/-- User `1` mints against its vault `id`. -/
def sampleMint (id amount : ℕ) : Action := .call (.mintOtoken ⟨⟨1, id⟩, 20, 20, 31, 1⟩ amount)

/-- The state a script leads to from the sample state. -/
def sampleRun (as : List Action) : State :=
  Run.playState (Action.next sampleDeployment splToken) sampleState as

/-- The transitions of that script. -/
def sampleTrace (as : List Action) : List (Transition State Label) :=
  Run.playTrace (Action.next sampleDeployment splToken) Action.label sampleState as

/-- The action is open to user `1`. -/
def Action.bySampleUser : Action → Bool
  | .call (.createOtokenInfo ctx) =>
    decide (ctx.admin = 1 ∧ (20 ≤ ctx.factoryOtoken.mint ∧ ctx.factoryOtoken.mint < 30) ∧
      ctx.factoryOtoken.collateral ≠ ctx.factoryOtoken.mint)
  | .call ix => decide (ix.signer = 1)
  | .createOtoken m _ => decide (20 ≤ m ∧ m < 30)
  | .openAccount .. => true
  | .tick _ => true

theorem Action.allowed_of_bySampleUser {a : Action} (h : a.bySampleUser = true) :
    a.Allowed sampleDeployment := by
  have hone : ∀ {k : Pubkey}, k = 1 → ¬sampleDeployment.IsControllerPda k := fun hk ↦
    hk ▸ sampleDeployment_not_isControllerPda (by decide) (by decide)
  cases a with
  | openAccount _ _ _ => trivial
  | tick _ => trivial
  | createOtoken m auth =>
    rw [bySampleUser, decide_eq_true_eq] at h
    exact h
  | call ix =>
    cases ix with
    | createOtokenInfo ctx =>
      rw [bySampleUser, decide_eq_true_eq] at h
      exact ⟨hone h.1, h.2⟩
    | _ => exact ⟨hone (of_decide_eq_true h), trivial⟩

theorem sampleRun_run {as : List Action} (ha : as.all Action.bySampleUser = true)
    (hplay : Run.playable (Action.next sampleDeployment splToken) sampleState as = true) :
    Run (Step sampleDeployment splToken) sampleState (sampleTrace as) (sampleRun as) :=
  run_of_script (fun a h ↦ Action.allowed_of_bySampleUser (List.all_eq_true.mp ha a h)) hplay

end Sample

/-! ## The ledger keeps its own invariants -/

theorem kept_of_transferIfPositive {L L' : Ledger} {src mint dst auth : Pubkey} {n d : ℕ}
    (h : transferIfPositive T L src mint dst auth n d = .ok L') : L.Kept L' := by
  rcases transferIfPositive_eq_ok.mp h with ⟨-, ht⟩ | ⟨-, rfl⟩
  · obtain ⟨r, hr⟩ := T.transferChecked_spec ht
    exact hr.kept
  · exact Ledger.Kept.refl _

theorem conserved_of_transferIfPositive {L L' : Ledger} {src mint dst auth : Pubkey} {n d : ℕ}
    (h : transferIfPositive T L src mint dst auth n d = .ok L') (hc : L.Conserved) :
    L'.Conserved := by
  rcases transferIfPositive_eq_ok.mp h with ⟨-, ht⟩ | ⟨-, rfl⟩
  · obtain ⟨r, hr⟩ := T.transferChecked_spec ht
    exact hr.conserved hc
  · exact hc

theorem Move.kept (h : Move D T s l s') (hl : l ≠ .token) : s.ledger.Kept s'.ledger := by
  cases h with
  | administered _ h => rw [h.ledger_eq]; exact Ledger.Kept.refl _
  | opened h => rw [h.state_eq]; exact Ledger.Kept.refl _
  | deposited _ h =>
    obtain ⟨d, ht⟩ := h.transfer
    obtain ⟨r, hr⟩ := T.transferChecked_spec ht
    rw [h.state_eq]
    exact hr.kept
  | minted h => rw [h.state_eq]; exact (T.mintTo_spec h.mintTo).kept
  | settled h =>
    obtain ⟨d, ht⟩ := h.transfer
    rw [h.state_eq]
    exact kept_of_transferIfPositive ht
  | redeemed _ h =>
    obtain ⟨d, hb⟩ := h.burn
    obtain ⟨d', ht⟩ := h.transfer
    rw [h.state_eq]
    exact (T.burnChecked_spec hb).kept.trans (kept_of_transferIfPositive ht)
  | withdrawn h =>
    obtain ⟨d, ht⟩ := h.transfer
    rw [h.state_eq]
    exact kept_of_transferIfPositive ht
  | registered _ h => rw [h.state_eq]; exact Ledger.Kept.refl _
  | priced h => rw [h.state_eq]; exact Ledger.Kept.refl _
  | token _ => exact absurd rfl hl
  | tick _ => exact Ledger.Kept.refl _
  | created _ _ => exact ⟨fun ha ↦ ⟨_, ha, rfl, rfl, id⟩, id⟩

theorem Move.undelegated (h : Move D T s l s') (hu : s.ledger.Undelegated D.IsControllerPda) :
    s'.ledger.Undelegated D.IsControllerPda := by
  by_cases hl : l = .token
  · subst hl
    cases h with
    | token h => exact h.undelegated hu
  · exact (h.kept hl).undelegated hu

theorem conserved_createMint {L : Ledger} {m : Pubkey} {auth : Option Pubkey} {d : ℕ}
    (hm : L.mints.lookup m = none) (hc : L.Conserved) :
    Ledger.Conserved { L with mints := L.mints.insert m ⟨auth, 0, d⟩ } := by
  intro k
  have hk := hc k
  by_cases hkm : k = m
  · subst hkm
    rw [Ledger.supply_eq_zero hm] at hk
    exact ⟨hk.1.trans (Nat.zero_le _), by simp [Ledger.supply]⟩
  · simp only [Ledger.supply, Finmap.lookup_insert_of_ne _ hkm]
    exact hk

theorem Move.conserved (h : Move D T s l s') (hc : s.ledger.Conserved) :
    s'.ledger.Conserved := by
  cases h with
  | administered _ h => rw [h.ledger_eq]; exact hc
  | opened h => rw [h.state_eq]; exact hc
  | deposited _ h =>
    obtain ⟨d, ht⟩ := h.transfer
    obtain ⟨r, hr⟩ := T.transferChecked_spec ht
    rw [h.state_eq]
    exact hr.conserved hc
  | minted h => rw [h.state_eq]; exact (T.mintTo_spec h.mintTo).conserved hc
  | settled h =>
    obtain ⟨d, ht⟩ := h.transfer
    rw [h.state_eq]
    exact conserved_of_transferIfPositive ht hc
  | redeemed _ h =>
    obtain ⟨d, hb⟩ := h.burn
    obtain ⟨d', ht⟩ := h.transfer
    rw [h.state_eq]
    exact conserved_of_transferIfPositive ht ((T.burnChecked_spec hb).conserved hc)
  | withdrawn h =>
    obtain ⟨d, ht⟩ := h.transfer
    rw [h.state_eq]
    exact conserved_of_transferIfPositive ht hc
  | registered _ h => rw [h.state_eq]; exact hc
  | priced h => rw [h.state_eq]; exact hc
  | token h => exact h.conserved hc
  | tick _ => exact hc
  | created _ h => exact conserved_createMint h hc

end Controller

end OptionsProtocol
