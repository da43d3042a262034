import OptionsProtocol.Protocol.Machine

/-!
# Who can change the rules

The configurations of the four programs name the keys that may administer them: administrators, the
controller's pauser, the oracle's operator and the successor its administrator nominated, the operator of
the factory, and the factory the whitelist trusts. An instruction either leaves all that is governed
alone — the configurations, the feeds and prices of the oracle, the series, the whitelist — or one of
these keys signed it, and whoever holds an office afterwards held one before or was named by it.

So power is inherited: a set of keys that contains the first office holders and everybody its members
ever name contains all later ones, and nobody else changes anything.
-/

namespace OptionsProtocol

open Except

/-! ## The controller -/

namespace Controller

variable {D : Deployment} {T : TokenProgram} {s s' : State} {c c' : ControllerConfig} {k : Pubkey}

/-- The key holds an office. -/
def State.Office (s : State) (k : Pubkey) : Prop :=
  ∃ c, s.config = some c ∧ (k = c.admin ∨ k = c.partialPauser)

/-- The key an instruction names for an office. -/
def Instruction.appointee : Instruction → Option Pubkey
  | .setPartialPauser _ pauser => some pauser
  | _ => none

theorem adminConfig_bind_eq_ok {α : Type} {admin : Pubkey} {f : ControllerConfig → Except Error α} {a : α}
    (hc : s.config = some c) :
    (adminConfig admin s >>= f) = .ok a ↔ c.admin = admin ∧ f c = .ok a := by
  rw [adminConfig, loadConfig, hc, bind_eq_ok]
  simp only [checked_eq_ok, Option.some.injEq, and_assoc, exists_eq_left']

theorem office_of_config {p : Option Pubkey} (hc : s.config = some c) (hc' : s'.config = some c')
    (hadmin : c'.admin = c.admin) (hpauser : c'.partialPauser = c.partialPauser ∨
      p = some c'.partialPauser) (h : s'.Office k) : s.Office k ∨ p = some k := by
  obtain ⟨_, heq, rfl | rfl⟩ := h
  · obtain rfl := Option.some.inj (hc'.symm.trans heq)
    exact .inl ⟨c, hc, .inl hadmin⟩
  · obtain rfl := Option.some.inj (hc'.symm.trans heq)
    exact hpauser.imp (fun heq ↦ ⟨c, hc, .inr heq⟩) id

/-- **What an instruction does to the rules of the controller**: nothing, or an office holder signed it,
or the operator of the factory that it was shown. -/
theorem governed_of_exec {ix : Instruction} (h : exec D T ix s = .ok s') (hc : s.config = some c) :
    (s'.config = s.config ∧ s'.otokenInfos = s.otokenInfos) ∨
      (s.Office ix.signer ∨ ∃ ctx, ix = .createOtokenInfo ctx ∧ ctx.factoryOperator = some ctx.admin) ∧
      (∃ c', s'.config = some c') ∧ ∀ k, s'.Office k → s.Office k ∨ ix.appointee = some k := by
  have hadmin : s.Office c.admin := ⟨c, hc, .inl rfl⟩
  cases ix with
  | initializeConfig payer admin =>
    simp only [exec, initializeConfig, require_bind_eq_ok, hc] at h
    exact absurd h.1 (by simp)
  | initializeCounter owner =>
    simp only [exec, initializeCounter, require_bind_eq_ok, pure_eq_ok] at h
    obtain ⟨-, -, rfl⟩ := h
    exact .inl ⟨rfl, rfl⟩
  | openVault o m b =>
    obtain ⟨id, he⟩ := openVault_effect h
    exact .inl (by rw [he.state_eq]; exact ⟨rfl, rfl⟩)
  | depositCollateral ctx n =>
    obtain ⟨_, _, _, _, he⟩ := depositCollateral_effect h
    exact .inl (by rw [he.state_eq]; exact ⟨rfl, rfl⟩)
  | mintOtoken ctx n =>
    obtain ⟨_, _, _, _, he⟩ := mintOtoken_effect h
    exact .inl (by rw [he.state_eq]; exact ⟨rfl, rfl⟩)
  | settleVault ctx =>
    obtain ⟨_, _, _, _, _, he⟩ := settleVault_effect h
    exact .inl (by rw [he.state_eq]; exact ⟨rfl, rfl⟩)
  | redeem ctx n =>
    obtain ⟨_, _, _, _, _, _, he⟩ := redeem_effect h
    exact .inl (by rw [he.state_eq]; exact ⟨rfl, rfl⟩)
  | emergencyWithdrawVault ctx =>
    obtain ⟨_, _, _, _, he⟩ := emergencyWithdrawVault_effect h
    exact .inl (by rw [he.state_eq]; exact ⟨rfl, rfl⟩)
  | setPartialPauser admin pauser =>
    simp only [exec, setPartialPauser, adminConfig_bind_eq_ok hc, require_bind_eq_ok, pure_eq_ok] at h
    obtain ⟨rfl, -, rfl⟩ := h
    exact .inr ⟨.inl hadmin, ⟨_, rfl⟩, fun _ ↦ office_of_config hc rfl rfl (.inr rfl)⟩
  | setPartiallyPaused caller paused =>
    simp only [exec, setPartiallyPaused, loadConfig, fromOption_bind_eq_ok, require_bind_eq_ok, pure_eq_ok,
      hc, Option.some.injEq, exists_eq_left'] at h
    obtain ⟨hcaller, rfl⟩ := h
    exact .inr ⟨.inl ⟨c, hc, hcaller⟩, ⟨_, rfl⟩, fun _ ↦ office_of_config hc rfl rfl (.inl rfl)⟩
  | setFullyPaused admin paused =>
    simp only [exec, setFullyPaused, adminConfig_bind_eq_ok hc, pure_eq_ok] at h
    obtain ⟨rfl, rfl⟩ := h
    exact .inr ⟨.inl hadmin, ⟨_, rfl⟩, fun _ ↦ office_of_config hc rfl rfl (.inl rfl)⟩
  | createOtokenInfo ctx =>
    have hsigner : ctx.admin = c.admin ∨ ctx.factoryOperator = some ctx.admin := by
      simp only [exec, createOtokenInfo, loadConfig, loadMint, fromOption_bind_eq_ok, require_bind_eq_ok,
        hc, Option.some.injEq, exists_eq_left'] at h
      obtain ⟨_, -, -, -, -, -, -, hsigner, -⟩ := h
      exact hsigner
    obtain ⟨info, he⟩ := createOtokenInfo_effect h
    have hc' : s'.config = some c := by rw [he.state_eq]; exact hc
    refine .inr ⟨?_, ⟨c, hc'⟩, fun _ ↦ office_of_config hc hc' rfl (.inl rfl)⟩
    exact hsigner.imp (fun heq ↦ ⟨c, hc, .inl heq⟩) fun hop ↦ ⟨ctx, rfl, hop⟩
  | setExpiryPrice ctx =>
    have hsigner : c.admin = ctx.admin := by
      simp only [exec, setExpiryPrice, loadConfig, loadOtokenInfo, fromOption_bind_eq_ok,
        require_bind_eq_ok, hc, Option.some.injEq, exists_eq_left'] at h
      obtain ⟨_, -, hsigner, -⟩ := h
      exact hsigner
    obtain ⟨info, he⟩ := setExpiryPrice_effect h
    have hc' : s'.config = some c := by rw [he.state_eq]; exact hc
    exact .inr ⟨.inl ⟨c, hc, .inl hsigner.symm⟩, ⟨c, hc'⟩, fun _ ↦ office_of_config hc hc' rfl (.inl rfl)⟩

end Controller

/-! ## The oracle -/

namespace Oracle

variable {clock : ℤ} {s s' : State} {c c' : OracleConfig} {k : Pubkey}

/-- The key holds an office, or was nominated for one. -/
def State.Office (s : State) (k : Pubkey) : Prop :=
  ∃ c, s.config = some c ∧ (k = c.admin ∨ k = c.pendingAdmin ∨ k = c.operator)

/-- Who has to sign the instruction. Initialising takes no signature but the payer's. -/
def Instruction.signer : Instruction → Option Pubkey
  | .initializeConfig .. => none
  | .registerFeed admin _ _ | .deregisterFeed admin _ | .setFeedActive admin _ _ | .setOperator admin _
  | .setPriceDeviationThreshold admin _ | .setMaxStaleness admin _ | .setMaxConfidence admin _
  | .transferOwnership admin _ => some admin
  | .setExpiryPrice ctx => some ctx.caller
  | .acceptOwnership newAdmin => some newAdmin

/-- The key an instruction names for an office. -/
def Instruction.appointee : Instruction → Option Pubkey
  | .setOperator _ operator => some operator
  | .transferOwnership _ newAdmin => some newAdmin
  | _ => none

theorem adminConfig_bind_eq_ok {α : Type} {admin : Pubkey} {f : OracleConfig → Except Error α} {a : α}
    (hc : s.config = some c) :
    (adminConfig admin s >>= f) = .ok a ↔ c.admin = admin ∧ f c = .ok a := by
  rw [adminConfig, loadConfig, hc, bind_eq_ok]
  simp only [checked_eq_ok, Option.some.injEq, and_assoc, exists_eq_left']

theorem adminFeed_bind_eq_ok {α : Type} {admin underlying : Pubkey} {f : PriceFeed → Except Error α} {a : α}
    (hc : s.config = some c) (h : (adminFeed admin underlying s >>= f) = .ok a) :
    c.admin = admin ∧ ∃ feed, f feed = .ok a := by
  obtain ⟨feed, hfeed, ha⟩ := bind_eq_ok.mp h
  simp only [adminFeed, loadFeed, fromOption_bind_eq_ok, require_bind_eq_ok,
    adminConfig_bind_eq_ok hc] at hfeed
  obtain ⟨_, -, -, hadmin, -⟩ := hfeed
  exact ⟨hadmin, feed, ha⟩

theorem office_of_config {p : Option Pubkey} (hc : s.config = some c) (hc' : s'.config = some c')
    (hadmin : c'.admin = c.admin ∨ c'.admin = c.pendingAdmin)
    (hpending : c'.pendingAdmin = c.pendingAdmin ∨ c'.pendingAdmin = Pubkey.default ∨
      p = some c'.pendingAdmin)
    (hoperator : c'.operator = c.operator ∨ p = some c'.operator) (h : s'.Office k) :
    s.Office k ∨ k = Pubkey.default ∨ p = some k := by
  obtain ⟨_, heq, rfl | rfl | rfl⟩ := h
  · obtain rfl := Option.some.inj (hc'.symm.trans heq)
    exact .inl ⟨c, hc, hadmin.imp id .inl⟩
  · obtain rfl := Option.some.inj (hc'.symm.trans heq)
    exact hpending.imp (fun heq ↦ ⟨c, hc, .inr (.inl heq)⟩) id
  · obtain rfl := Option.some.inj (hc'.symm.trans heq)
    exact hoperator.imp (fun heq ↦ ⟨c, hc, .inr (.inr heq)⟩) .inr

/-- **What an instruction does to the oracle**: an office holder signed it, and names the new ones. -/
theorem governed_of_exec {ix : Instruction} (h : exec clock ix s = .ok s') (hc : s.config = some c) :
    (∃ k, ix.signer = some k ∧ s.Office k) ∧ (∃ c', s'.config = some c') ∧
      ∀ k, s'.Office k → s.Office k ∨ k = Pubkey.default ∨ ix.appointee = some k := by
  have hadmin : s.Office c.admin := ⟨c, hc, .inl rfl⟩
  -- most instructions keep the office holders
  have hkept : ∀ {c'}, s'.config = some c' → c'.admin = c.admin → c'.pendingAdmin = c.pendingAdmin →
      c'.operator = c.operator → (∃ c', s'.config = some c') ∧
        ∀ k, s'.Office k → s.Office k ∨ k = Pubkey.default ∨ ix.appointee = some k := by
    intro c' hc' ha hp ho
    exact ⟨⟨c', hc'⟩, fun _ ↦ office_of_config hc hc' (.inl ha) (.inl hp) (.inl ho)⟩
  cases ix with
  | initializeConfig admin operator pyth staleness confidence deviation =>
    simp only [exec, initializeConfig, require_bind_eq_ok, hc] at h
    exact absurd h.1 (by simp)
  | registerFeed admin underlying feedId =>
    simp only [exec, registerFeed, require_bind_eq_ok, adminConfig_bind_eq_ok hc, pure_eq_ok] at h
    obtain ⟨-, rfl, rfl⟩ := h
    exact ⟨⟨_, rfl, hadmin⟩, hkept hc rfl rfl rfl⟩
  | deregisterFeed admin underlying =>
    obtain ⟨rfl, feed, hfeed⟩ := adminFeed_bind_eq_ok hc h
    simp only [require_bind_eq_ok, pure_eq_ok] at hfeed
    obtain ⟨-, rfl⟩ := hfeed
    exact ⟨⟨_, rfl, hadmin⟩, hkept hc rfl rfl rfl⟩
  | setFeedActive admin underlying active =>
    obtain ⟨rfl, feed, hfeed⟩ := adminFeed_bind_eq_ok hc h
    obtain rfl := pure_eq_ok.mp hfeed
    exact ⟨⟨_, rfl, hadmin⟩, hkept hc rfl rfl rfl⟩
  | setExpiryPrice ctx =>
    obtain ⟨c', feed, pyth, he⟩ := setExpiryPrice_effect h
    obtain rfl := Option.some.inj (hc.symm.trans he.config_eq)
    have hc' : s'.config = some c := by rw [he.state_eq]; exact hc
    exact ⟨⟨_, rfl, c, hc, he.caller.imp id .inr⟩, hkept hc' rfl rfl rfl⟩
  | setOperator admin operator =>
    simp only [exec, setOperator, adminConfig_bind_eq_ok hc, require_bind_eq_ok, pure_eq_ok] at h
    obtain ⟨rfl, -, rfl⟩ := h
    exact ⟨⟨_, rfl, hadmin⟩, ⟨_, rfl⟩, fun _ ↦ office_of_config hc rfl (.inl rfl) (.inl rfl) (.inr rfl)⟩
  | setPriceDeviationThreshold admin threshold =>
    simp only [exec, setPriceDeviationThreshold, adminConfig_bind_eq_ok hc, require_bind_eq_ok,
      pure_eq_ok] at h
    obtain ⟨rfl, -, rfl⟩ := h
    exact ⟨⟨_, rfl, hadmin⟩, hkept rfl rfl rfl rfl⟩
  | setMaxStaleness admin staleness =>
    simp only [exec, setMaxStaleness, adminConfig_bind_eq_ok hc, pure_eq_ok] at h
    obtain ⟨rfl, rfl⟩ := h
    exact ⟨⟨_, rfl, hadmin⟩, hkept rfl rfl rfl rfl⟩
  | setMaxConfidence admin confidence =>
    simp only [exec, setMaxConfidence, adminConfig_bind_eq_ok hc, pure_eq_ok] at h
    obtain ⟨rfl, rfl⟩ := h
    exact ⟨⟨_, rfl, hadmin⟩, hkept rfl rfl rfl rfl⟩
  | transferOwnership admin newAdmin =>
    simp only [exec, transferOwnership, adminConfig_bind_eq_ok hc, require_bind_eq_ok, pure_eq_ok] at h
    obtain ⟨rfl, -, rfl⟩ := h
    exact ⟨⟨_, rfl, hadmin⟩, ⟨_, rfl⟩,
      fun _ ↦ office_of_config hc rfl (.inl rfl) (.inr (.inr rfl)) (.inl rfl)⟩
  | acceptOwnership newAdmin =>
    simp only [exec, acceptOwnership, loadConfig, fromOption_bind_eq_ok, require_bind_eq_ok, pure_eq_ok, hc,
      Option.some.injEq, exists_eq_left'] at h
    obtain ⟨rfl, rfl⟩ := h
    exact ⟨⟨_, rfl, c, hc, .inr (.inl rfl)⟩, ⟨_, rfl⟩,
      fun _ ↦ office_of_config hc rfl (.inr rfl) (.inr (.inl rfl)) (.inl rfl)⟩

end Oracle

/-! ## The factory -/

namespace OtokenFactory

variable {D : Deployment} {A : SeriesAddresses D} {clock : ℤ} {L L' : Ledger} {s s' : State}
  {c : FactoryConfig} {k : Pubkey}

/-- The key holds an office. -/
def State.Office (s : State) (k : Pubkey) : Prop :=
  (∃ c, s.config = some c ∧ k = c.admin) ∨ ∃ p, s.operatorConfig = some p ∧ k = p.operator

def Instruction.signer : Instruction → Option Pubkey
  | .initializeConfig _ => none
  | .setController admin _ | .setOperator admin _ => some admin
  | .createOtoken ctx => some ctx.admin

/-- The key an instruction names for an office. -/
def Instruction.appointee : Instruction → Option Pubkey
  | .setOperator _ operator => some operator
  | _ => none

theorem office_of_config {c' : FactoryConfig} {p : Option Pubkey} (hc : s.config = some c)
    (hc' : s'.config = some c') (hadmin : c'.admin = c.admin)
    (hoperator : s'.operatorConfig = s.operatorConfig ∨ ∃ o, s'.operatorConfig = some ⟨o⟩ ∧ p = some o)
    (h : s'.Office k) : s.Office k ∨ p = some k := by
  rcases h with ⟨_, heq, rfl⟩ | ⟨q, hq, rfl⟩
  · obtain rfl := Option.some.inj (hc'.symm.trans heq)
    exact .inl (.inl ⟨c, hc, hadmin⟩)
  · rcases hoperator with hsame | ⟨o, ho, hp⟩
    · exact .inl (.inr ⟨q, hsame ▸ hq, rfl⟩)
    · obtain rfl := Option.some.inj (ho.symm.trans hq)
      exact .inr hp

/-- **What an instruction does to the factory**: an office holder signed it, and names the new ones. -/
theorem governed_of_exec {ix : Instruction} (h : exec A clock L ix s = .ok (s', L'))
    (hc : s.config = some c) :
    (∃ k, ix.signer = some k ∧ s.Office k) ∧ (∃ c', s'.config = some c') ∧
      ∀ k, s'.Office k → s.Office k ∨ ix.appointee = some k := by
  have hadmin : s.Office c.admin := .inl ⟨c, hc, rfl⟩
  cases ix with
  | initializeConfig admin =>
    simp only [exec, initializeConfig, bind_eq_ok, require_eq_ok, hc] at h
    obtain ⟨_, ⟨_, hnone, -⟩, -⟩ := h
    exact absurd hnone (by simp)
  | setController admin controller =>
    simp only [exec, setController, loadConfig, hc, bind_eq_ok, fromOption_eq_ok, require_eq_ok, pure_eq_ok,
      Prod.mk.injEq, Option.some.injEq] at h
    obtain ⟨_, ⟨_, rfl, _, rfl, _, -, rfl⟩, rfl, rfl⟩ := h
    exact ⟨⟨_, rfl, hadmin⟩, ⟨_, rfl⟩, fun _ ↦ office_of_config hc rfl rfl (.inl rfl)⟩
  | setOperator admin operator =>
    simp only [exec, setOperator, loadConfig, hc, bind_eq_ok, fromOption_eq_ok, require_eq_ok, pure_eq_ok,
      Prod.mk.injEq, Option.some.injEq] at h
    obtain ⟨_, ⟨_, rfl, _, rfl, _, -, rfl⟩, rfl, rfl⟩ := h
    exact ⟨⟨_, rfl, hadmin⟩, ⟨_, rfl⟩, fun _ ↦ office_of_config hc rfl rfl (.inr ⟨_, rfl, rfl⟩)⟩
  | createOtoken ctx =>
    have hsigner : ctx.admin = c.admin ∨ ∃ p, s.operatorConfig = some p ∧ ctx.admin = p.operator := by
      simp only [exec, createOtoken, loadConfig, hc, fromOption_bind_eq_ok, require_bind_eq_ok,
        Option.some.injEq, exists_eq_left'] at h
      obtain ⟨p, hp, -, -, -, -, hsigner, -⟩ := h
      exact hsigner.imp id fun hop ↦ ⟨p, hp, hop⟩
    obtain ⟨c', he⟩ := createOtoken_effect h
    obtain rfl := Option.some.inj (hc.symm.trans he.config_eq)
    rw [he.state_eq]
    exact ⟨⟨_, rfl, hsigner.imp (fun heq ↦ ⟨c, hc, heq⟩) id⟩, ⟨_, rfl⟩,
      fun _ ↦ office_of_config hc rfl rfl (.inl rfl)⟩

end OtokenFactory

/-! ## The whitelist -/

namespace Whitelist

variable {s s' : State} {c : WhitelistConfig} {k : Pubkey}

/-- The key holds an office, or is the factory's. -/
def State.Office (s : State) (k : Pubkey) : Prop :=
  ∃ c, s.config = some c ∧ (k = c.admin ∨ k = c.factory)

def Instruction.signer : Instruction → Option Pubkey
  | .initializeConfig _ => none
  | .setFactory admin _ => some admin
  | .whitelistOtoken ctx => some ctx.caller

/-- The key an instruction names for an office. -/
def Instruction.appointee : Instruction → Option Pubkey
  | .setFactory _ factory => some factory
  | _ => none

/-- **What an instruction does to the whitelist**: an office holder signed it, or the operator of the
factory that it was shown. -/
theorem governed_of_exec {ix : Instruction} (h : exec ix s = .ok s') (hc : s.config = some c) :
    (∃ k, ix.signer = some k ∧
      (s.Office k ∨ ∃ ctx, ix = .whitelistOtoken ctx ∧ ctx.factoryOperator = some k)) ∧
      (∃ c', s'.config = some c') ∧ ∀ k, s'.Office k → s.Office k ∨ ix.appointee = some k := by
  cases ix with
  | initializeConfig admin =>
    simp only [exec, initializeConfig, require_bind_eq_ok, hc] at h
    exact absurd h.1 (by simp)
  | setFactory admin factory =>
    simp only [exec, setFactory, loadConfig, hc, fromOption_bind_eq_ok, require_bind_eq_ok, pure_eq_ok,
      Option.some.injEq, exists_eq_left'] at h
    obtain ⟨rfl, -, rfl⟩ := h
    refine ⟨⟨_, rfl, .inl ⟨c, hc, .inl rfl⟩⟩, ⟨_, rfl⟩, ?_⟩
    rintro k ⟨_, heq, rfl | rfl⟩
    · obtain rfl := Option.some.inj heq
      exact .inl ⟨c, hc, .inl rfl⟩
    · obtain rfl := Option.some.inj heq
      exact .inr rfl
  | whitelistOtoken ctx =>
    simp only [exec, whitelistOtoken, loadConfig, hc, fromOption_bind_eq_ok, require_bind_eq_ok, pure_eq_ok,
      Option.some.injEq, exists_eq_left'] at h
    obtain ⟨-, -, hcaller, rfl⟩ := h
    refine ⟨⟨_, rfl, ?_⟩, ⟨c, rfl⟩, ?_⟩
    · rcases hcaller with heq | ⟨-, heq⟩ | hop
      · exact .inl ⟨c, hc, .inl heq⟩
      · exact .inl ⟨c, hc, .inr heq⟩
      · exact .inr ⟨ctx, rfl, hop⟩
    · rintro k ⟨c', hc', hk⟩
      exact .inl ⟨c', hc.trans hc', hk⟩

end Whitelist

/-! ## All four -/

namespace Protocol

open OtokenFactory (SeriesAddresses)

/-- The key holds an office in one of the programs. The zero key stands for an office nobody holds. -/
def State.Office (s : State) (k : Pubkey) : Prop :=
  k = Pubkey.default ∨ s.controller.Office k ∨ s.oracle.Office k ∨ s.factory.Office k ∨ s.whitelist.Office k

/-- Who signed the step. -/
def Label.signer : Label → Option Pubkey
  | .controller ix => some ix.signer
  | .oracle ix => ix.signer
  | .factory ix => ix.signer
  | .whitelist ix => ix.signer
  | .token | .tick => none

/-- The key a step names for an office. -/
def Label.appointee : Label → Option Pubkey
  | .controller ix => ix.appointee
  | .oracle ix => ix.appointee
  | .factory ix => ix.appointee
  | .whitelist ix => ix.appointee
  | .token | .tick => none

/-- All four programs are initialised. -/
structure State.Deployed (s : State) : Prop where
  controller : ∃ c, s.controller.config = some c
  oracle : ∃ c, s.oracle.config = some c
  factory : ∃ c, s.factory.config = some c
  whitelist : ∃ c, s.whitelist.config = some c

/-- Nothing that is governed is different. -/
structure Undisturbed (s s' : State) : Prop where
  config : s'.controller.config = s.controller.config
  otokenInfos : s'.controller.otokenInfos = s.controller.otokenInfos
  oracle : s'.oracle = s.oracle
  factory : s'.factory = s.factory
  whitelist : s'.whitelist = s.whitelist

theorem Undisturbed.refl (s : State) : Undisturbed s s := ⟨rfl, rfl, rfl, rfl, rfl⟩

variable {D : Deployment} {T : TokenProgram} {A : SeriesAddresses D} {s s' s'' s₀ : State} {l : Label}
  {tr : List (Transition State Label)}

theorem Undisturbed.trans (h : Undisturbed s s') (h' : Undisturbed s' s'') : Undisturbed s s'' where
  config := h'.config.trans h.config
  otokenInfos := h'.otokenInfos.trans h.otokenInfos
  oracle := h'.oracle.trans h.oracle
  factory := h'.factory.trans h.factory
  whitelist := h'.whitelist.trans h.whitelist

theorem Undisturbed.deployed (h : Undisturbed s s') (hd : s.Deployed) : s'.Deployed where
  controller := by rw [h.config]; exact hd.controller
  oracle := by rw [h.oracle]; exact hd.oracle
  factory := by rw [h.factory]; exact hd.factory
  whitelist := by rw [h.whitelist]; exact hd.whitelist

theorem Undisturbed.office (h : Undisturbed s s') {k : Pubkey} (hk : s'.Office k) : s.Office k := by
  have hcontroller : s'.controller.Office k → s.controller.Office k := by
    rintro ⟨c, hc, hk⟩
    exact ⟨c, h.config ▸ hc, hk⟩
  rw [State.Office, h.oracle, h.factory, h.whitelist] at hk
  exact hk.imp id (Or.imp hcontroller id)

theorem office_of_shown {o : Option Pubkey} {k : Pubkey}
    (hshown : o = s.factory.operatorConfig.map OtokenFactory.FactoryOperatorConfig.operator)
    (hk : o = some k) : s.Office k := by
  obtain ⟨p, hp, rfl⟩ := Option.map_eq_some_iff.mp (hshown.symm.trans hk)
  exact .inr (.inr (.inr (.inl (.inr ⟨p, hp, rfl⟩))))

/-- **What a step can do to the rules**: nothing, or an office holder signed it, and those who hold an
office afterwards held one before or were named by it. -/
theorem Step.governed (hd : s.Deployed) (h : Step D T A s l s') : s'.Deployed ∧
    (Undisturbed s s' ∨ (∃ k, l.signer = some k ∧ s.Office k) ∧
      ∀ k, s'.Office k → s.Office k ∨ l.appointee = some k) := by
  have hquiet : Undisturbed s s' → s'.Deployed ∧
      (Undisturbed s s' ∨ (∃ k, l.signer = some k ∧ s.Office k) ∧
        ∀ k, s'.Office k → s.Office k ∨ l.appointee = some k) := fun hu ↦ ⟨hu.deployed hd, .inl hu⟩
  obtain ⟨⟨c, hc⟩, ⟨co, hco⟩, ⟨cf, hcf⟩, ⟨cw, hcw⟩⟩ := hd
  cases h with
  | token _ => exact hquiet ⟨rfl, rfl, rfl, rfl, rfl⟩
  | tick _ => exact hquiet ⟨rfl, rfl, rfl, rfl, rfl⟩
  | @controller ix c₁ hsigner hreads h =>
    rcases Controller.governed_of_exec h hc with ⟨hsame, hinfos⟩ | ⟨hsigned, hd', hoffice⟩
    · exact hquiet ⟨hsame, hinfos, rfl, rfl, rfl⟩
    · refine ⟨⟨hd', ⟨co, hco⟩, ⟨cf, hcf⟩, ⟨cw, hcw⟩⟩, .inr ⟨⟨_, rfl, ?_⟩, ?_⟩⟩
      · rcases hsigned with hk | ⟨ctx, rfl, hop⟩
        · exact .inr (.inl hk)
        · exact office_of_shown hreads.2.2 hop
      · rintro k (hk | hk | hk)
        · exact .inl (.inl hk)
        · exact (hoffice k hk).imp (fun h ↦ .inr (.inl h)) id
        · exact .inl (.inr (.inr hk))
  | @oracle ix o h =>
    obtain ⟨⟨k, hsigner, hk⟩, hd', hoffice⟩ := Oracle.governed_of_exec h hco
    refine ⟨⟨⟨c, hc⟩, hd', ⟨cf, hcf⟩, ⟨cw, hcw⟩⟩, .inr ⟨⟨k, hsigner, .inr (.inr (.inl hk))⟩, ?_⟩⟩
    rintro k (hk | hk | hk | hk)
    · exact .inl (.inl hk)
    · exact .inl (.inr (.inl hk))
    · rcases hoffice k hk with h | h | h
      · exact .inl (.inr (.inr (.inl h)))
      · exact .inl (.inl h)
      · exact .inr h
    · exact .inl (.inr (.inr (.inr hk)))
  | @factory ix f L h =>
    obtain ⟨⟨k, hsigner, hk⟩, hd', hoffice⟩ := OtokenFactory.governed_of_exec h hcf
    refine ⟨⟨⟨c, hc⟩, ⟨co, hco⟩, hd', ⟨cw, hcw⟩⟩,
      .inr ⟨⟨k, hsigner, .inr (.inr (.inr (.inl hk)))⟩, ?_⟩⟩
    rintro k (hk | hk | hk | hk | hk)
    · exact .inl (.inl hk)
    · exact .inl (.inr (.inl hk))
    · exact .inl (.inr (.inr (.inl hk)))
    · exact (hoffice k hk).imp (fun h ↦ .inr (.inr (.inr (.inl h)))) id
    · exact .inl (.inr (.inr (.inr (.inr hk))))
  | @whitelist ix w hshows h =>
    obtain ⟨⟨k, hsigner, hsigned⟩, hd', hoffice⟩ := Whitelist.governed_of_exec h hcw
    refine ⟨⟨⟨c, hc⟩, ⟨co, hco⟩, ⟨cf, hcf⟩, hd'⟩, .inr ⟨⟨k, hsigner, ?_⟩, ?_⟩⟩
    · rcases hsigned with hk | ⟨ctx, rfl, hop⟩
      · exact .inr (.inr (.inr (.inr hk)))
      · exact office_of_shown hshows.2 hop
    · rintro k (hk | hk | hk | hk | hk)
      · exact .inl (.inl hk)
      · exact .inl (.inr (.inl hk))
      · exact .inl (.inr (.inr (.inl hk)))
      · exact .inl (.inr (.inr (.inr (.inl hk))))
      · exact (hoffice k hk).imp (fun h ↦ .inr (.inr (.inr (.inr h)))) id

/-! ## Succession -/

/-- What a member of `K` names for an office is in `K`. -/
def Closed (K : Set Pubkey) (t : Transition State Label) : Prop :=
  ∀ k ∈ K, t.label.signer = some k → ∀ a, t.label.appointee = some a → a ∈ K

/-- As long as members of `K` name nobody else, all offices stay in `K`. -/
theorem offices_inherited {K : Set Pubkey} (hrun : Run (Step D T A) s₀ tr s) (hd : s₀.Deployed)
    (h₀ : ∀ k, s₀.Office k → k ∈ K) (hK : ∀ t ∈ tr, Closed K t) :
    s.Deployed ∧ ∀ k, s.Office k → k ∈ K := by
  refine Run.invariant_of (I := fun s ↦ s.Deployed ∧ ∀ k, s.Office k → k ∈ K) ⟨hd, h₀⟩ ?_ hrun hK
  intro u l u' hu hs hclosed
  obtain ⟨hd', hquiet | ⟨⟨k, hsigner, hk⟩, hoffice⟩⟩ := hs.governed hu.1
  · exact ⟨hd', fun k hk ↦ hu.2 k (hquiet.office hk)⟩
  · refine ⟨hd', fun a ha ↦ ?_⟩
    rcases hoffice a ha with hold | hnew
    · exact hu.2 a hold
    · exact hclosed k (hu.2 k hk) hsigner a hnew

/-- **Power is inherited.** Let `K` contain all office holders of a state in which the four programs are
initialised, and whomever its members name for an office in the steps they sign. Then whatever happens,
`K` contains all office holders, every step that changes a configuration, a feed, a price, a series or the
whitelist is signed by one of its members, and if none of them signs anything then nothing of this
changes. -/
theorem authority_inherited {K : Set Pubkey} (hrun : Run (Step D T A) s₀ tr s) (hd : s₀.Deployed)
    (h₀ : ∀ k, s₀.Office k → k ∈ K) (hK : ∀ t ∈ tr, Closed K t) :
    (∀ k, s.Office k → k ∈ K) ∧
      (∀ t ∈ tr, Undisturbed t.pre t.post ∨ ∃ k ∈ K, t.label.signer = some k) ∧
      ((∀ t ∈ tr, ∀ k ∈ K, t.label.signer ≠ some k) → Undisturbed s₀ s) := by
  have hsteps : ∀ t ∈ tr, Undisturbed t.pre t.post ∨ ∃ k ∈ K, t.label.signer = some k := by
    intro t ht
    obtain ⟨as, bs, rfl⟩ := List.append_of_mem ht
    obtain ⟨hbefore, hstep, -⟩ := hrun.split
    have hpre := offices_inherited hbefore hd h₀ fun u hu ↦ hK u (List.mem_append_left _ hu)
    obtain ⟨-, hquiet | ⟨⟨k, hsigner, hk⟩, -⟩⟩ := hstep.governed hpre.1
    · exact .inl hquiet
    · exact .inr ⟨k, hpre.2 k hk, hsigner⟩
  refine ⟨(offices_inherited hrun hd h₀ hK).2, hsteps, fun hnone ↦ ?_⟩
  refine Run.invariant_of (I := Undisturbed s₀) (Q := fun t ↦ Undisturbed t.pre t.post) (.refl s₀)
    (fun _ _ _ hu _ hquiet ↦ hu.trans hquiet) hrun fun t ht ↦ ?_
  rcases hsteps t ht with hquiet | ⟨k, hk, hsigner⟩
  · exact hquiet
  · exact absurd hsigner (hnone t ht k hk)

/-- The sample protocol once all four programs are initialised. -/
def sampleDeployed : State := sampleRun (sampleSetup ++ Oracle.sampleInstructions.map .oracle)

/-- User `1` hands the oracle over to user `2`, who names `5` its operator. -/
def sampleHandover : List Action :=
  [.oracle (.transferOwnership 1 2), .oracle (.acceptOwnership 2), .oracle (.setOperator 2 5)]

theorem authority_inherited_sample :
    {k | (Run.playState (Action.next sampleDeployment splToken sampleAddresses) sampleDeployed
      sampleHandover).Office k} ⊆ {k | k = 0 ∨ k = 1 ∨ k = 2 ∨ k = 5} := by
  have hcontroller : sampleDeployed.controller.config = some ⟨1, 0, false, false⟩ := by decide +kernel
  have horacle : sampleDeployed.oracle.config = some ⟨1, 0, 1, 6, 60, 100, 1000⟩ := by decide +kernel
  have hfactory : sampleDeployed.factory.config = some ⟨1, sampleDeployment.controllerConfig, 1⟩ := by
    decide +kernel
  have hoperator : sampleDeployed.factory.operatorConfig = some ⟨1⟩ := by decide +kernel
  have hwhitelist : sampleDeployed.whitelist.config = some ⟨1, 0⟩ := by decide +kernel
  have hsigned : sampleHandover.all Action.bySampleUser = true := by decide
  have hrun := run_of_bySampleUser (s := sampleDeployed) hsigned (by decide +kernel)
  refine (authority_inherited (K := {k | k = 0 ∨ k = 1 ∨ k = 2 ∨ k = 5}) hrun
    ⟨⟨_, hcontroller⟩, ⟨_, horacle⟩, ⟨_, hfactory⟩, ⟨_, hwhitelist⟩⟩ ?_ fun t ht ↦ ?_).1
  · simp only [State.Office, Controller.State.Office, Oracle.State.Office, OtokenFactory.State.Office,
      Whitelist.State.Office, hcontroller, horacle, hfactory, hoperator, hwhitelist, Option.some.injEq,
      exists_eq_left', Set.mem_ofPred_eq]
    rintro k (rfl | (rfl | rfl) | (rfl | rfl | rfl) | (rfl | rfl) | rfl | rfl) <;> simp [Pubkey.default]
  · have hnamed : ∀ a ∈ sampleHandover, ∀ x, a.label.appointee = some x →
        x = 0 ∨ x = 1 ∨ x = 2 ∨ x = 5 := by
      simp [sampleHandover, Action.label, Label.appointee, Oracle.Instruction.appointee]
    have hlabel := Run.label_of_mem_playTrace _ _
      (P := fun l : Label ↦ ∀ x, l.appointee = some x → x = 0 ∨ x = 1 ∨ x = 2 ∨ x = 5) hnamed ht
    intro _ _ _ a ha
    exact hlabel a ha

end Protocol

end OptionsProtocol
