import OptionsProtocol.Controller.Machine
import OptionsProtocol.Settler.Effects

/-!
# The settler and the controller as one transition system

A run interleaves the settler's instructions, everything others do with the controller and the token
program, and lamports sent around. Nobody but the settler signs for its address, with one exception:
the program that `physical_redeem` calls for the swap has that signature for the length of the call.
What it does with it is, for the controller, a run of its own.

Seen from the controller a settler instruction is a few of its own steps: the instructions it is
called with, and token transfers in between. A run of the two programs is therefore a run of the
controller, and the controller's invariants hold throughout.
-/

namespace OptionsProtocol

/-- The instruction reads no account of the oracle, the factory or the whitelist. -/
def Controller.Instruction.SelfContained : Controller.Instruction → Prop
  | .createOtokenInfo _ | .setExpiryPrice _ => False
  | _ => True

namespace Settler

open Except
open Controller (VaultKey Vault OTokenInfo)

/-- The settler is the only one that can allocate, assign or spend at this address. -/
def Address.IsSettlers : Address → Prop
  | .wallet _ | .vault _ | .vaultCounter _ => False
  | _ => True

/-- The swap acts through the instructions of the controller and the token program only, without
time passing. Nobody can spend what the controller's addresses own, so neither can the swap. -/
def Swap.Ordinary (D : Deployment) (T : TokenProgram) (swap : Swap) : Prop :=
  ∀ c c', c.ledger.Undelegated D.IsControllerPda → swap c = .ok c' →
    ∃ tr, Run (Controller.Step D T) c tr c' ∧ ∀ t ∈ tr, t.label ≠ .tick

/-- What is known of the transaction an instruction is part of: the signatures it asks the
precompile to check are valid under the scheme `verifies`. -/
def Instruction.Admissible (D : Deployment) (T : TokenProgram) (verifies : Ed25519.Signed → Bool) :
    Instruction → Prop
  | .executeOrder _ _ tx _ => Ed25519.Succeeded verifies tx
  | .physicalRedeem _ _ _ swap => swap.Ordinary D T
  | _ => True

/-- The kinds of step. -/
inductive Label where
  | call (ix : Instruction)
  /-- Somebody else's use of the controller or the token program, or the passing of time. -/
  | controller (l : Controller.Label)
  | lamports

/-- One step. -/
inductive Step (D : Deployment) (T : TokenProgram) (rent : ℕ → ℕ)
    (verifies : Ed25519.Signed → Bool) : State → Label → State → Prop
  | call {s s' : State} {ix : Instruction} (hsigners : ∀ k ∈ ix.signers, ¬D.IsPda k)
      (hix : ix.Admissible D T verifies) (h : exec D T rent ix s = .ok s') :
      Step D T rent verifies s (.call ix) s'
  | controller {s : State} {l : Controller.Label} {c : Controller.State}
      (hsigner : ∀ ix, l = .call ix → ¬D.IsPda ix.signer)
      (htoken : l = .token → s.ctrl.ledger.Rely D.IsPda D.IsOtokenMint c.ledger)
      (h : Controller.Step D T s.ctrl l c) :
      Step D T rent verifies s (.controller l) { s with ctrl := c }
  | lamports {s : State} {system : SystemAccounts Address}
      (h : s.system.Rely Address.IsSettlers system) :
      Step D T rent verifies s .lamports { s with system }

/-- The settler is deployed next to a new controller. Nobody has written to its addresses, though
they may hold lamports already. -/
structure Initial (D : Deployment) (s : State) : Prop where
  ctrl : Controller.Initial D s.ctrl
  undelegated : s.ctrl.ledger.Undelegated D.IsPda
  config : s.config = none
  makerStates : s.makerStates = ∅
  quoteFills : s.quoteFills = ∅
  makerOtokenBalances : s.makerOtokenBalances = ∅
  vaultMMs : s.vaultMMs = ∅
  plain : ∀ k : Address, k.IsSettlers → (s.system.get k).IsPlain

/-! ## Moves -/

/-- What a step did. -/
inductive Move (D : Deployment) (T : TokenProgram) (verifies : Ed25519.Signed → Bool) (s : State) :
    Label → State → Prop
  | configured {ix : Instruction} {s' : State} (hix : ix.IsAdministrative) (h : Configured s s') :
      Move D T verifies s (.call ix) s'
  | counted {owner vaultCounter : Pubkey} {system : SystemAccounts Address}
      {ctrl : Controller.State}
      (h : Controller.initializeCounter D.settlerConfig s.ctrl = .ok ctrl) :
      Move D T verifies s (.call (.initVaultCounter owner vaultCounter)) { s with system, ctrl }
  | listed {owner maker : Pubkey} {whitelisted : Bool} {system : SystemAccounts Address} :
      Move D T verifies s (.call (.whitelistMaker owner maker whitelisted)) { s with
        system
        makerStates := s.makerStates.insert maker
          (((s.makerStates.lookup maker).getD .zeroed).listed maker whitelisted) }
  | bumped {maker : Pubkey} {state : MakerState} (h : s.makerStates.lookup maker = some state) :
      Move D T verifies s (.call (.incrementMakerNonce maker)) { s with
        makerStates := s.makerStates.insert maker { state with nonce := state.nonce + 1 } }
  | cancelled {maker : Pubkey} {quoteId : UInt64} {system : SystemAccounts Address} :
      Move D T verifies s (.call (.cancelQuote maker quoteId)) { s with
        system
        quoteFills := s.quoteFills.insert ⟨maker, s.nonceOf maker, quoteId.toNat⟩
          ⟨s.filledAmount ⟨maker, s.nonceOf maker, quoteId.toNat⟩, true⟩ }
  | executed {ctx : ExecuteOrder} {ord : Order} {tx : Transaction} {i : ℕ}
      {r : ExecuteOrder.Course} {s' : State} (hsigner : ¬D.IsPda ctx.user)
      (hs : Ed25519.Succeeded verifies tx) (h : ExecuteOrder.Effect D T s ctx ord tx i r s') :
      Move D T verifies s (.call (.executeOrder ctx ord tx i)) s'
  | settled {operator : Pubkey} {ctx : Controller.SettleVault} {ctrl : Controller.State}
      (hsigner : ¬D.IsPda ctx.admin) (h : Controller.settleVault D T ctx s.ctrl = .ok ctrl) :
      Move D T verifies s (.call (.settleVault operator ctx)) { s with ctrl }
  | withdrawn {ctx : EmergencyWithdrawOrder} {vault : Vault} {vaultMM : VaultMM}
      {balance : MakerOTokenBalance} {ledger : Ledger} {ctrl : Controller.State} {s' : State}
      (hsigner : ¬D.IsPda ctx.beneficiary)
      (h : EmergencyWithdrawOrder.Effect D T s ctx vault vaultMM balance ledger ctrl s') :
      Move D T verifies s (.call (.emergencyWithdraw ctx)) s'
  | redeemed {ix : Instruction} {ctx : RedeemForMM} {amount : ℕ} {acc : Custody}
      {redeemed : Controller.State} {payout : ℕ} {ledger : Ledger} {s' : State}
      (hix : ix = .redeemForMM ctx amount ∨ ix = .mmSelfRedeem ctx amount)
      (h : RedeemForMM.Effect D T s ctx amount acc redeemed payout ledger s') :
      Move D T verifies s (.call ix) s'
  | delivered {ctx : PhysicalRedeem} {amount maxCollateralSpent : ℕ} {swap : Swap}
      {r : PhysicalRedeem.Course} {s' : State} (hswap : swap.Ordinary D T)
      (h : PhysicalRedeem.Effect D T s ctx amount maxCollateralSpent swap r s') :
      Move D T verifies s (.call (.physicalRedeem ctx amount maxCollateralSpent swap)) s'
  | controller {l : Controller.Label} {c : Controller.State}
      (hsigner : ∀ ix, l = .call ix → ¬D.IsPda ix.signer)
      (htoken : l = .token → s.ctrl.ledger.Rely D.IsPda D.IsOtokenMint c.ledger)
      (h : Controller.Step D T s.ctrl l c) :
      Move D T verifies s (.controller l) { s with ctrl := c }
  | lamports {system : SystemAccounts Address} (h : s.system.Rely Address.IsSettlers system) :
      Move D T verifies s .lamports { s with system }

variable {D : Deployment} {T : TokenProgram} {rent : ℕ → ℕ} {verifies : Ed25519.Signed → Bool}
  {s s' s₀ : State} {l : Label} {tr : List (Transition State Label)}

/-- **Every step is one of the moves.** -/
theorem Step.move (h : Step D T rent verifies s l s') : Move D T verifies s l s' := by
  cases h with
  | controller hsigner htoken h => exact .controller hsigner htoken h
  | lamports h => exact .lamports h
  | @call _ ix hsigners hix h =>
    cases ix with
    | initVaultCounter owner vaultCounter =>
      obtain ⟨system, ctrl, -, hctrl, rfl⟩ := initVaultCounter_effect h
      exact .counted hctrl
    | whitelistMaker owner maker whitelisted =>
      obtain ⟨system, -, rfl⟩ := whitelistMaker_effect h
      exact .listed
    | incrementMakerNonce maker =>
      obtain ⟨state, hstate, rfl⟩ := incrementMakerNonce_effect h
      exact .bumped hstate
    | cancelQuote maker quoteId =>
      obtain ⟨system, -, rfl⟩ := cancelQuote_effect h
      exact .cancelled
    | executeOrder ctx ord tx i =>
      obtain ⟨r, he⟩ := executeOrder_effect h
      exact .executed (hsigners _ (List.mem_singleton_self _)) hix he
    | settleVault operator ctx =>
      obtain ⟨-, c, hc, rfl⟩ := settleVault_eq_ok.mp h
      exact .settled (hsigners _ (by simp [Instruction.signers])) hc
    | emergencyWithdraw ctx =>
      obtain ⟨vault, vaultMM, balance, ledger, ctrl, he⟩ := emergencyWithdraw_effect h
      exact .withdrawn (hsigners _ (List.mem_singleton_self _)) he
    | redeemForMM ctx amount =>
      obtain ⟨acc, redeemed, payout, ledger, he⟩ := redeemForMM_effect h
      exact .redeemed (.inl rfl) he
    | mmSelfRedeem ctx amount =>
      obtain ⟨acc, redeemed, payout, ledger, he⟩ := mmSelfRedeem_effect h
      exact .redeemed (.inr rfl) he
    | physicalRedeem ctx amount maxCollateralSpent swap =>
      obtain ⟨r, he⟩ := physicalRedeem_effect h
      exact .delivered hix he
    | initializeConfig _ _ _ _ _ _ => exact .configured trivial (configured_of_exec h trivial)
    | setTreasury _ _ => exact .configured trivial (configured_of_exec h trivial)
    | setProtocolFee _ _ => exact .configured trivial (configured_of_exec h trivial)
    | setOperator _ _ => exact .configured trivial (configured_of_exec h trivial)
    | pause _ _ => exact .configured trivial (configured_of_exec h trivial)
    | setEscapeDelay _ _ => exact .configured trivial (configured_of_exec h trivial)
    | setJupiterProgram _ _ => exact .configured trivial (configured_of_exec h trivial)
    | withdrawRentReserve _ _ _ => exact .configured trivial (configured_of_exec h trivial)

/-! ## Seen from the controller -/

section Projection

variable {c c' : Controller.State} {L : Ledger} {src mint dst : Pubkey} {n d : ℕ}

/-- A call signed by the settler is an ordinary step of the controller. -/
theorem step_of_exec (ix : Controller.Instruction) (hsigner : ix.signer = D.settlerConfig)
    (hgenuine : ix.Genuine D) (h : Controller.exec D T ix c = .ok c') :
    Controller.Step D T c (.call ix) c' :=
  .call (hsigner ▸ D.not_isControllerPda_settlerConfig) hgenuine h

theorem step_of_settleVault {ctx : Controller.SettleVault} (hsigner : ¬D.IsPda ctx.admin)
    (h : Controller.settleVault D T ctx c = .ok c') :
    Controller.Step D T c (.call (.settleVault ctx)) c' :=
  .call (D.not_isControllerPda_of_not_isPda hsigner) trivial h

theorem step_of_transfer {auth : Pubkey} (hu : c.ledger.Undelegated D.IsControllerPda)
    (hauth : ¬D.IsControllerPda auth)
    (h : T.transferChecked c.ledger src mint dst auth n d = some L) :
    Controller.Step D T c .token { c with ledger := L } := by
  obtain ⟨r, hr⟩ := T.transferChecked_spec h
  exact .token (hr.rely hu hauth)

theorem step_of_transferIfPositive (hu : c.ledger.Undelegated D.IsControllerPda)
    (h : Controller.transferIfPositive T c.ledger src mint dst D.settlerConfig n d = .ok L) :
    Controller.Step D T c .token { c with ledger := L } := by
  rcases Controller.transferIfPositive_eq_ok.mp h with ⟨-, ht⟩ | ⟨-, rfl⟩
  · exact step_of_transfer hu D.not_isControllerPda_settlerConfig ht
  · exact .token (Ledger.Rely.refl _ _ _)

theorem undelegated_of_run {tr : List (Transition Controller.State Controller.Label)}
    (hu : c.ledger.Undelegated D.IsControllerPda) (h : Run (Controller.Step D T) c tr c') :
    c'.ledger.Undelegated D.IsControllerPda :=
  Run.invariant (I := fun c ↦ c.ledger.Undelegated D.IsControllerPda) hu
    (fun _ _ _ hI hs ↦ hs.move.undelegated hI) h

theorem ExecuteOrder.Effect.steps {ctx : ExecuteOrder} {ord : Order} {tx : Transaction} {i : ℕ}
    {r : ExecuteOrder.Course} (h : ExecuteOrder.Effect D T s ctx ord tx i r s') :
    Controller.Step D T s.ctrl
        (.call (.openVault D.settlerConfig ord.collateralMint ctx.user)) r.opened ∧
      Controller.Step D T r.opened
        (.call (.depositCollateral (ctx.deposit D) ord.collateralAmount.toNat)) r.funded ∧
      Controller.Step D T r.funded (.call (.mintOtoken (ctx.mint D) ord.amount.toNat)) r.minted :=
  ⟨step_of_exec (.openVault D.settlerConfig ord.collateralMint ctx.user) rfl trivial h.openVault,
    step_of_exec (.depositCollateral (ctx.deposit D) _) rfl trivial h.deposit,
    step_of_exec (.mintOtoken (ctx.mint D) _) rfl trivial h.mint⟩

/-- Whatever the swap does, it does in steps of the controller labelled `P`. -/
def Swap.Through (D : Deployment) (T : TokenProgram) (P : Controller.Label → Prop) (swap : Swap) :
    Prop :=
  ∀ c c', c.ledger.Undelegated D.IsControllerPda → swap c = .ok c' →
    ∃ tr, Run (Controller.Step D T) c tr c' ∧ ∀ t ∈ tr, P t.label

/-- Steps of the controller that the settler's instructions do not account for are labelled `P`. -/
def Label.Through (D : Deployment) (T : TokenProgram) (P : Controller.Label → Prop) : Label → Prop
  | .controller m => P m
  | .call (.physicalRedeem _ _ _ swap) => swap.Through D T P
  | _ => True

theorem Move.through (h : Move D T verifies s l s') : l.Through D T fun _ ↦ True := by
  cases h with
  | delivered hswap _ =>
    intro c c' hu hc
    obtain ⟨tr, hrun, -⟩ := hswap c c' hu hc
    exact ⟨tr, hrun, fun _ _ ↦ trivial⟩
  | @configured ix _ hix _ => cases ix <;> trivial
  | redeemed hix _ => rcases hix with rfl | rfl <;> trivial
  | _ => trivial

/-- What a step does to the controller other than by the settler's own calls and transfers, it does within
`R`. -/
def Label.Within (D : Deployment) (T : TokenProgram) (R : Controller.State → Controller.State → Prop) :
    Label → Prop
  | .controller m => ∀ c c', Controller.Step D T c m c' → R c c'
  | .call (.physicalRedeem _ _ _ swap) =>
    ∀ c c', c.ledger.Undelegated D.IsControllerPda → swap c = .ok c' → R c c'
  | _ => True

/-- **A settler step goes through the controller**: along any relation between its states that its
self-contained calls and the transfers of others are in, and what others did in the step. -/
theorem Move.within {R : Controller.State → Controller.State → Prop} (hrefl : ∀ c, R c c)
    (htrans : ∀ {c₁ c₂ c₃}, R c₁ c₂ → R c₂ c₃ → R c₁ c₃)
    (hcall : ∀ {c ix c'}, Controller.Step D T c (.call ix) c' → ix.SelfContained → R c c')
    (htoken : ∀ {c c'}, Controller.Step D T c .token c' → R c c')
    (hkeeps : ∀ {c c' : Controller.State}, R c c' → c.ledger.Undelegated D.IsControllerPda →
      c'.ledger.Undelegated D.IsControllerPda)
    (hl : l.Within D T R) (hu : s.ctrl.ledger.Undelegated D.IsControllerPda)
    (h : Move D T verifies s l s') : R s.ctrl s'.ctrl := by
  have hnil : s'.ctrl = s.ctrl → R s.ctrl s'.ctrl := by
    intro heq
    rw [heq]
    exact hrefl _
  cases h with
  | configured _ h => exact hnil h.ctrl_eq
  | counted h => exact hcall (step_of_exec (.initializeCounter D.settlerConfig) rfl trivial h) trivial
  | listed => exact hnil rfl
  | bumped _ => exact hnil rfl
  | cancelled => exact hnil rfl
  | @executed _ _ _ _ r _ _ _ h =>
    obtain ⟨hopen, hdeposit, hmint⟩ := h.steps
    obtain ⟨d, hpay⟩ := h.pay
    obtain ⟨d', hfee⟩ := h.payFee
    have hminted : R s.ctrl r.minted :=
      htrans (htrans (hcall hopen trivial) (hcall hdeposit trivial)) (hcall hmint trivial)
    have hu₁ := hkeeps hminted hu
    have hpaid := htoken (step_of_transferIfPositive hu₁ hpay)
    have hcharged := htoken (step_of_transferIfPositive (hkeeps hpaid hu₁) hfee)
    rw [h.state_eq]
    exact htrans (htrans hminted hpaid) hcharged
  | settled hsigner h => exact hcall (step_of_settleVault hsigner h) trivial
  | @withdrawn ctx _ _ _ ledger _ _ _ h =>
    have hburn : Controller.Step D T s.ctrl .token { s.ctrl with ledger } := by
      rcases h.burn with ⟨-, d, hb⟩ | ⟨-, hL⟩
      · exact .token ((T.burnChecked_spec hb).rely hu D.not_isControllerPda_settlerConfig)
      · exact hL ▸ .token (Ledger.Rely.refl _ _ _)
    have hwithdraw := step_of_exec (.emergencyWithdrawVault (ctx.withdraw D)) rfl trivial
      h.withdraw
    rw [h.state_eq]
    exact htrans (htoken hburn) (hcall hwithdraw trivial)
  | @redeemed _ ctx n _ _ _ _ _ _ h =>
    obtain ⟨d, hpay⟩ := h.pay
    have hredeem := hcall (step_of_exec (.redeem (ctx.redeem D) n) rfl trivial h.redeem) trivial
    have hforward := htoken (step_of_transferIfPositive (hkeeps hredeem hu) hpay)
    rw [h.state_eq]
    exact htrans hredeem hforward
  | @delivered ctx n _ _ r _ _ h =>
    have hredeem := hcall (step_of_exec (.redeem (ctx.redeem D) n) rfl trivial h.redeem) trivial
    have hswapped := htrans hredeem (hl _ _ (hkeeps hredeem hu) h.swap)
    have hu' := hkeeps hswapped hu
    rw [h.state_eq]
    cases hside : r.acc.info.isPut with
    | true =>
      obtain ⟨-, -, -, surplus, d, -, hpay⟩ := h.put hside
      exact htrans hswapped (htoken (step_of_transferIfPositive hu' hpay))
    | false =>
      obtain ⟨-, -, surplus, paid, d, -, hdeliver, hpay⟩ := h.call hside
      have hdelivered := htoken (step_of_transfer hu' D.not_isControllerPda_settlerConfig hdeliver)
      have hsurplus := htoken (step_of_transferIfPositive (hkeeps hdelivered hu') hpay)
      exact htrans hswapped (htrans hdelivered hsurplus)
  | controller _ _ h => exact hl _ _ h
  | lamports _ => exact hnil rfl

/-- **A settler step is a run of the controller**, which calls instructions and transfers tokens only,
unless others did more. -/
theorem Move.run_of {P : Controller.Label → Prop} (hcall : ∀ ix, P (.call ix)) (htoken : P .token)
    (hl : l.Through D T P) (hu : s.ctrl.ledger.Undelegated D.IsControllerPda)
    (h : Move D T verifies s l s') :
    ∃ tr, Run (Controller.Step D T) s.ctrl tr s'.ctrl ∧ ∀ t ∈ tr, P t.label := by
  refine h.within (R := fun c c' ↦ ∃ tr, Run (Controller.Step D T) c tr c' ∧ ∀ t ∈ tr, P t.label)
    (fun c ↦ ⟨[], .nil, by simp⟩) ?_ (fun hs _ ↦ ⟨_, .single hs, by simp [hcall]⟩)
    (fun hs ↦ ⟨_, .single hs, by simp [htoken]⟩) (fun hrun hu ↦ undelegated_of_run hu hrun.choose_spec.1) ?_ hu
  · rintro c₁ c₂ c₃ ⟨tr₁, h₁, hP₁⟩ ⟨tr₂, h₂, hP₂⟩
    refine ⟨tr₁ ++ tr₂, h₁.append h₂, fun t ht ↦ ?_⟩
    exact (List.mem_append.mp ht).elim (hP₁ t) (hP₂ t)
  · cases l with
    | controller m =>
      intro c c' hs
      refine ⟨_, .single hs, fun t ht ↦ ?_⟩
      rw [List.mem_singleton.mp ht]
      exact hl
    | call ix =>
      cases ix with
      | physicalRedeem ctx n m swap => exact hl
      | _ => trivial
    | lamports => trivial

theorem Move.run (hu : s.ctrl.ledger.Undelegated D.IsControllerPda)
    (h : Move D T verifies s l s') : ∃ tr, Run (Controller.Step D T) s.ctrl tr s'.ctrl := by
  obtain ⟨tr, hrun, -⟩ := h.run_of (fun _ ↦ trivial) trivial h.through hu
  exact ⟨tr, hrun⟩

/-- **A run of the two programs is a run of the controller.** -/
theorem run_ctrl (hrun : Run (Step D T rent verifies) s₀ tr s) (h₀ : Initial D s₀) :
    ∃ tr', Run (Controller.Step D T) s₀.ctrl tr' s.ctrl := by
  obtain ⟨tr', h, -⟩ := Run.simulate (p := State.ctrl) (P := fun _ ↦ True) (Q := fun _ ↦ True)
    (J := fun c ↦ c.ledger.Undelegated D.IsControllerPda) h₀.ctrl.undelegated
    (fun _ _ _ hJ hs ↦ hs.move.undelegated hJ)
    (fun _ _ _ hJ hs _ ↦ (hs.move.run hJ).imp fun _ h ↦ ⟨h, fun _ _ ↦ trivial⟩)
    hrun fun _ _ ↦ trivial
  exact ⟨tr', h⟩

theorem Move.ctrl_invariant {J : Controller.State → Prop}
    (hJ : ∀ c m c', J c → Controller.Step D T c m c' → J c')
    (hu : s.ctrl.ledger.Undelegated D.IsControllerPda) (h : Move D T verifies s l s')
    (hs : J s.ctrl) : J s'.ctrl := by
  obtain ⟨tr, hrun⟩ := h.run hu
  exact Run.invariant hs hJ hrun

end Projection

/-! ## Scripts -/

/-- Actions that concrete runs are made of. -/
inductive Action where
  | call (ix : Instruction)
  | controller (a : Controller.Action)
  | fund (k : Address) (lamports : ℕ)

def Action.label : Action → Label
  | .call ix => .call ix
  | .controller a => .controller a.label
  | .fund .. => .lamports

/-- Carry out an action. -/
def Action.next (D : Deployment) (T : TokenProgram) (rent : ℕ → ℕ) : Action → State → Option State
  | .call ix, s => (exec D T rent ix s).toOption
  | .controller a, s => (a.next D T s.ctrl).map fun ctrl ↦ { s with ctrl }
  | .fund k n, s =>
    some { s with
      system := s.system.insert k { s.system.get k with
        lamports := (s.system.get k).lamports + n } }

/-- The action is open to somebody other than the two programs. -/
def Action.Allowed (D : Deployment) (T : TokenProgram) (verifies : Ed25519.Signed → Bool) :
    Action → Prop
  | .call ix => (∀ k ∈ ix.signers, ¬D.IsPda k) ∧ ix.Admissible D T verifies
  | .controller a => a.Allowed D ∧ ∀ ix, a = .call ix → ¬D.IsPda ix.signer
  | .fund .. => True

theorem Action.step {a : Action} (ha : a.Allowed D T verifies)
    (h : a.next D T rent s = some s') : Step D T rent verifies s a.label s' := by
  cases a with
  | call ix =>
    rw [Action.next] at h
    cases hx : exec D T rent ix s with
    | error e => rw [hx] at h; exact absurd h (by simp [Except.toOption])
    | ok s'' =>
      rw [hx, Except.toOption, Option.some.injEq] at h
      subst h
      exact .call ha.1 ha.2 hx
  | controller a =>
    obtain ⟨c, hc, rfl⟩ := Option.map_eq_some_iff.mp h
    refine .controller (fun ix hix ↦ ?_) (fun htoken ↦ ?_) (Controller.Action.step ha.1 hc)
    · cases a with
      | call ix' =>
        rw [Controller.Action.label, Controller.Label.call.injEq] at hix
        exact hix ▸ ha.2 ix' rfl
      | _ => cases hix
    · cases a with
      | openAccount k mint owner =>
        obtain ⟨hk, hs⟩ := Option.ite_none_right_eq_some.mp hc
        obtain rfl := Option.some.inj hs
        exact Ledger.Rely.open mint owner hk
      | _ => cases htoken
  | fund k n =>
    rw [Action.next, Option.some.injEq] at h
    subst h
    refine .lamports fun l _ ↦ ?_
    by_cases hl : l = k
    · subst hl
      simp
    · simp [hl]

theorem run_of_script {as : List Action} (ha : ∀ a ∈ as, a.Allowed D T verifies)
    (hplay : Run.playable (Action.next D T rent) s as = true) :
    Run (Step D T rent verifies) s (Run.playTrace (Action.next D T rent) Action.label s as)
      (Run.playState (Action.next D T rent) s as) :=
  Run.of_script _ _ (fun a h _ _ hn ↦ Action.step (ha a h) hn) hplay

section Sample

open Bytes

/-- The controller's sample asset and the asset `15` its series are struck in. User `1` has the one in
account `11` and the maker in account `14`, both with an allowance for the settler; account `16`
belongs to the treasury `2`. A market, `9`, has some of the other in account `17`. -/
def sampleLedger : Ledger where
  accounts := ((((Finmap.insert 11 ⟨10, 1, 1000000, some 4, 1000000⟩ ∅).insert 12
    ⟨10, sampleDeployment.poolVaultAuth 10, 0, none, 0⟩).insert 14
    ⟨10, otherKey, 5000000, some 4, 5000000⟩).insert 16 ⟨10, 2, 0, none, 0⟩).insert 17
    ⟨15, 9, 1000000, none, 0⟩
  mints := (Finmap.insert 10 ⟨none, 6000000, 6⟩ ∅).insert 15 ⟨none, 1000000, 6⟩

def sampleState : State where
  ctrl := { Controller.sampleState with ledger := sampleLedger }
  system := ∅
  config := none
  makerStates := ∅
  quoteFills := ∅
  makerOtokenBalances := ∅
  vaultMMs := ∅

theorem sampleDeployment_not_isPda {k : Pubkey} (h3 : k ≠ 3) (h4 : k ≠ 4) (hmsb : k.msb = false) :
    ¬sampleDeployment.IsPda k := by
  rintro (h | h)
  · exact sampleDeployment_not_isControllerPda h3 hmsb h
  · exact h4 h

theorem sampleLedger_accounts {k : Pubkey} {a : TokenAccount}
    (h : sampleLedger.accounts.lookup k = some a) :
    sampleLedger.mints.lookup a.mint ≠ none ∧
      (sampleDeployment.IsPda a.owner → a.delegate = none) := by
  simp only [sampleLedger, Store.lookup_insert_eq_some] at h
  rcases h with ⟨-, rfl⟩ | ⟨-, ⟨-, rfl⟩ | ⟨-, ⟨-, rfl⟩ | ⟨-, ⟨-, rfl⟩ | ⟨-, ⟨-, rfl⟩ | ⟨-, h⟩⟩⟩⟩⟩
  · exact ⟨by decide, fun _ ↦ rfl⟩
  · exact ⟨by decide, fun _ ↦ rfl⟩
  · exact ⟨by decide,
      fun h ↦ absurd h (sampleDeployment_not_isPda (by decide) (by decide) (by decide))⟩
  · exact ⟨by decide, fun _ ↦ rfl⟩
  · exact ⟨by decide,
      fun h ↦ absurd h (sampleDeployment_not_isPda (by decide) (by decide) (by decide))⟩
  · exact absurd h (by simp)

theorem sampleLedger_mints {m : Pubkey} {x : Mint} (h : sampleLedger.mints.lookup m = some x) :
    sampleLedger.circulating m ≤ x.supply ∧ x.supply < 2 ^ 64 := by
  simp only [sampleLedger, Store.lookup_insert_eq_some] at h
  rcases h with ⟨rfl, rfl⟩ | ⟨-, ⟨rfl, rfl⟩ | ⟨-, h⟩⟩
  · exact ⟨by decide +kernel, by decide⟩
  · exact ⟨by decide +kernel, by decide⟩
  · exact absurd h (by simp)

theorem sampleState_initial : Initial sampleDeployment sampleState where
  ctrl :=
    { config := rfl
      vaultCounters := rfl
      vaults := rfl
      otokenInfos := rfl
      log := rfl
      conserved := Ledger.conserved_of_mints (fun _ _ ha ↦ (sampleLedger_accounts ha).1)
        fun _ _ hx ↦ sampleLedger_mints hx
      undelegated := fun _ _ ha hP ↦ (sampleLedger_accounts ha).2 (.inl hP)
      mint_absent := fun m hm ↦ by
        have hne : ∀ {k : Pubkey}, k < 20 → m ≠ k := by
          rintro k hk rfl
          exact absurd hm.1 (BitVec.not_le.mpr hk)
        rw [sampleState, sampleLedger, Finmap.lookup_insert_of_ne _ (hne (by decide)),
          Finmap.lookup_insert_of_ne _ (hne (by decide)), Finmap.lookup_empty] }
  undelegated _ _ ha hP := (sampleLedger_accounts ha).2 hP
  config := rfl
  makerStates := rfl
  quoteFills := rfl
  makerOtokenBalances := rfl
  vaultMMs := rfl
  plain _ _ := SystemAccount.isPlain_empty

/-- The controller's sample series, struck at five whole units of asset `15`. -/
def sampleSeries : Controller.CreateOTokenInfo := { Controller.sampleSeries with
  factoryOtoken := { Controller.sampleSeries.factoryOtoken with strikePrice := 500000000 } }

/-- User `1` administers both programs and registers the series; `41` and `42` are the settler's
accounts for its oTokens and its collateral. -/
def sampleSetup : List Action :=
  [.fund (.wallet 1) 100000, .fund (.wallet otherKey) 100000, .fund .rentReserve 100000,
   .controller (.call (.initializeConfig 1 1)),
   .controller (.createOtoken 20 sampleDeployment.controllerConfig),
   .controller (.openAccount 31 20 1), .controller (.openAccount 41 20 4),
   .controller (.openAccount 42 10 4),
   .controller (.call (.createOtokenInfo sampleSeries)),
   .call (.initializeConfig 1 1 2 100 259200 7), .call (.initVaultCounter 1 4),
   .call (.whitelistMaker 1 otherKey true)]

/-- A million oTokens under a quote for three million. -/
def sampleOrder : Order where
  amount := 1000000
  bidPrice := 100000000
  deadline := 1000
  quoteId := 1
  maxAmount := 3000000
  makerNonce := 0
  premiumMint := 10
  collateralAmount := 10000
  collateralMint := 10

/-- The maker's signature over that quote. -/
def sampleSignature : List UInt8 :=
  leBytes 64 0xa8fe654084a09f5befddfddf635b9a7e031b34ee573b6967cd24398f7d0980fd07dfece8a18db74228c51699f33a1a6b2ac11d799dd19a668f3cbf924b95461

/-- The scheme, on the one triple the sample transaction asks about. -/
def sampleScheme (x : Ed25519.Signed) : Bool :=
  decide (x = ⟨otherKey.toBytes, sampleOrder.message 20, sampleSignature⟩)

def sampleTransaction : Transaction :=
  [⟨Ed25519.ID, precompileData Ed25519.CURRENT sampleSignature otherKey.toBytes
    (sampleOrder.message 20)⟩]

/-- User `1` executes the order, in the settler's vault `id`. -/
def sampleExecuteOrder (id : ℕ) : ExecuteOrder where
  vault := ⟨4, id⟩
  vaultCounter := 4
  otokenInfo := 20
  otokenMint := 20
  collateralMintAccount := 10
  premiumMintAccount := 10
  userCollateralAccount := 11
  poolTokenAccount := 12
  poolVaultAuthority := sampleDeployment.poolVaultAuth 10
  settlerOtokenAccount := 41
  mmPremiumAccount := 14
  userPremiumAccount := 11
  treasuryAccount := 16
  user := 1
  maker := otherKey

def sampleExecute (id : ℕ) : Action :=
  .call (.executeOrder (sampleExecuteOrder id) sampleOrder sampleTransaction 1)

/-- The setup and one order. -/
def sampleFirst : List Action := sampleSetup ++ [sampleExecute 0]

/-- The series expires, and gets a price that is in the money. -/
def samplePriced : List Action :=
  [.controller (.tick 100),
   .controller (.call (.setExpiryPrice ⟨20, ⟨10, 100, 700000000, true⟩, 1⟩))]

/-- User `1`, the operator, redeems for the maker. -/
def sampleRedeemForMM : RedeemForMM where
  signer := 1
  makerOtokenBalance := ⟨otherKey, 20⟩
  otokenInfo := 20
  otokenMint := 20
  collateralMintAccount := 10
  settlerOtokenAccount := 41
  settlerCollateralAccount := 42
  mmCollateralAccount := 14
  poolTokenAccount := 12
  poolVaultAuthority := sampleDeployment.poolVaultAuth 10

/-- The state a script leads to from the sample state. -/
def sampleRun (as : List Action) : State :=
  Run.playState (Action.next sampleDeployment splToken id) sampleState as

/-- The transitions of that script. -/
def sampleTrace (as : List Action) : List (Transition State Label) :=
  Run.playTrace (Action.next sampleDeployment splToken id) Action.label sampleState as

/-- `Instruction.Admissible`, as far as it can be evaluated. -/
def Instruction.admissible (verifies : Ed25519.Signed → Bool) : Instruction → Bool
  | .executeOrder _ _ tx _ => decide (Ed25519.Succeeded verifies tx)
  | .physicalRedeem .. => false
  | _ => true

theorem Instruction.admissible_of_eq_true {ix : Instruction} (h : ix.admissible verifies = true) :
    ix.Admissible D T verifies := by
  cases ix with
  | executeOrder ctx ord tx i =>
    rw [Instruction.admissible, decide_eq_true_eq] at h
    exact h
  | physicalRedeem ctx n m swap => exact absurd h Bool.false_ne_true
  | _ => trivial

/-- The action is open to user `1` and the maker. -/
def Action.bySampleUser (verifies : Ed25519.Signed → Bool) : Action → Bool
  | .call ix =>
    (ix.signers.all fun k ↦ decide (k = 1 ∨ k = otherKey)) && ix.admissible verifies
  | .controller a => a.bySampleUser
  | .fund .. => true

theorem Action.allowed_of_bySampleUser {a : Action} (h : a.bySampleUser verifies = true) :
    a.Allowed sampleDeployment T verifies := by
  have hone : ¬sampleDeployment.IsPda 1 :=
    sampleDeployment_not_isPda (by decide) (by decide) (by decide)
  cases a with
  | fund _ _ => trivial
  | controller a =>
    refine ⟨Controller.Action.allowed_of_bySampleUser h, fun ix hix ↦ ?_⟩
    subst hix
    have hsigner : ix.signer = 1 := by
      cases ix with
      | createOtokenInfo ctx => exact (of_decide_eq_true h).1
      | _ => exact of_decide_eq_true h
    rw [hsigner]
    exact hone
  | call ix =>
    rw [Action.bySampleUser, Bool.and_eq_true, List.all_eq_true] at h
    refine ⟨fun k hk ↦ ?_, Instruction.admissible_of_eq_true h.2⟩
    rcases of_decide_eq_true (h.1 k hk) with rfl | rfl
    · exact hone
    · exact sampleDeployment_not_isPda (by decide) (by decide) (by decide)

theorem sampleRun_run {as : List Action} (ha : as.all (Action.bySampleUser verifies) = true)
    (hplay : Run.playable (Action.next sampleDeployment splToken id) sampleState as = true) :
    Run (Step sampleDeployment splToken id verifies) sampleState (sampleTrace as)
      (sampleRun as) :=
  run_of_script (fun a h ↦ Action.allowed_of_bySampleUser (List.all_eq_true.mp ha a h)) hplay

end Sample

end Settler

end OptionsProtocol
