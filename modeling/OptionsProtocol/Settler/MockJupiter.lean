import OptionsProtocol.Settler.Acceptance

/-!
# Deliveries through the mock market

The market the repository brings along keeps two reserves and asks for no price: it takes what it is told to
take and pays what it is told to pay, to one account or to two. A delivery routed through it is decided by
the settler's checks of balances alone, so that it can be said of every such route whether the delivery goes
through, and what everybody has afterwards.

Everything but the route is in order in `PhysicalRedeem.Ready`.
-/

namespace OptionsProtocol

open Except

/-! ## The market -/

namespace MockJupiter

/-- It has no errors of its own. -/
abbrev Error := Failure Empty

structure Swap where
  source : Pubkey
  inReserve : Pubkey
  outReserve : Pubkey
  destination : Pubkey
  sourceAuthority : Pubkey

structure SwapSplit where
  source : Pubkey
  inReserve : Pubkey
  outReserve : Pubkey
  primaryDestination : Pubkey
  secondaryDestination : Pubkey
  sourceAuthority : Pubkey

/-- `Account<TokenAccount>`. -/
def loadTokenAccount (L : Ledger) (k : Pubkey) : Except Error TokenAccount :=
  fromOption (L.accounts.lookup k) (.anchor .accountNotInitialized)

section Instructions

/-! The mock signs for `mockAuthority`, its `[b"mock_jupiter_auth"]`, and is called with the signature of
`signer`. -/

variable (T : TokenProgram) (mockAuthority signer : Pubkey)

/-- `token::transfer`: `transfer_checked` without the mint and the decimals, which are those of the source. -/
def transfer (L : Ledger) (src dst auth : Pubkey) (amount : ℕ) : Except Error Ledger := do
  let source ← fromOption (L.accounts.lookup src) .token
  let mint ← fromOption (L.mints.lookup source.mint) .token
  fromOption (T.transferChecked L src source.mint dst auth amount mint.decimals) .token

/-- `swap`. -/
def swap (ctx : Swap) (inputAmount outputAmount : ℕ) (L : Ledger) : Except Error Ledger := do
  let _ ← loadTokenAccount L ctx.source
  let _ ← loadTokenAccount L ctx.inReserve
  let _ ← loadTokenAccount L ctx.outReserve
  let _ ← loadTokenAccount L ctx.destination
  require (ctx.sourceAuthority = signer) .token
  let L ← transfer T L ctx.source ctx.inReserve ctx.sourceAuthority inputAmount
  transfer T L ctx.outReserve ctx.destination mockAuthority outputAmount

/-- `swap_split`. -/
def swapSplit (ctx : SwapSplit) (inputAmount outputPrimary outputSecondary : ℕ) (L : Ledger) :
    Except Error Ledger := do
  let _ ← loadTokenAccount L ctx.source
  let _ ← loadTokenAccount L ctx.inReserve
  let _ ← loadTokenAccount L ctx.outReserve
  let _ ← loadTokenAccount L ctx.primaryDestination
  let _ ← loadTokenAccount L ctx.secondaryDestination
  require (ctx.sourceAuthority = signer) .token
  let L ← transfer T L ctx.source ctx.inReserve ctx.sourceAuthority inputAmount
  let L ← transfer T L ctx.outReserve ctx.primaryDestination mockAuthority outputPrimary
  transfer T L ctx.outReserve ctx.secondaryDestination mockAuthority outputSecondary

inductive Instruction where
  | swap (ctx : Swap) (inputAmount outputAmount : ℕ)
  | swapSplit (ctx : SwapSplit) (inputAmount outputPrimary outputSecondary : ℕ)

/-- Run an instruction. -/
def exec : Instruction → Ledger → Except Error Ledger
  | .swap ctx inputAmount outputAmount, L => swap T mockAuthority signer ctx inputAmount outputAmount L
  | .swapSplit ctx inputAmount outputPrimary outputSecondary, L =>
    swapSplit T mockAuthority signer ctx inputAmount outputPrimary outputSecondary L

end Instructions

/-! ## What an instruction moves -/

namespace Instruction

def source : Instruction → Pubkey
  | .swap ctx .. => ctx.source
  | .swapSplit ctx .. => ctx.source

def inReserve : Instruction → Pubkey
  | .swap ctx .. => ctx.inReserve
  | .swapSplit ctx .. => ctx.inReserve

def outReserve : Instruction → Pubkey
  | .swap ctx .. => ctx.outReserve
  | .swapSplit ctx .. => ctx.outReserve

def sourceAuthority : Instruction → Pubkey
  | .swap ctx .. => ctx.sourceAuthority
  | .swapSplit ctx .. => ctx.sourceAuthority

/-- What is taken from the source. -/
def input : Instruction → ℕ
  | .swap _ inputAmount _ => inputAmount
  | .swapSplit _ inputAmount _ _ => inputAmount

/-- What is paid, and where to. -/
def outputs : Instruction → List (Pubkey × ℕ)
  | .swap ctx _ outputAmount => [(ctx.destination, outputAmount)]
  | .swapSplit ctx _ outputPrimary outputSecondary =>
    [(ctx.primaryDestination, outputPrimary), (ctx.secondaryDestination, outputSecondary)]

/-- What is paid in all. -/
def output (ix : Instruction) : ℕ := (ix.outputs.map Prod.snd).sum

/-- What is paid to an account. -/
def outputTo (ix : Instruction) (k : Pubkey) : ℕ :=
  (ix.outputs.map fun p ↦ if k = p.1 then p.2 else 0).sum

end Instruction

variable {T : TokenProgram} {mock signer src dst auth k : Pubkey} {L L' : Ledger} {n : ℕ}
  {ix : Instruction} {ps : List (Pubkey × ℕ)}

theorem transfer_eq_ok : transfer T L src dst auth n = .ok L' ↔
    ∃ a x, L.accounts.lookup src = some a ∧ L.mints.lookup a.mint = some x ∧
      T.transferChecked L src a.mint dst auth n x.decimals = some L' := by
  simp only [transfer, fromOption_bind_eq_ok, fromOption_eq_ok]
  constructor
  · rintro ⟨a, ha, x, hx, ht⟩
    exact ⟨a, x, ha, hx, ht⟩
  · rintro ⟨a, x, ha, hx, ht⟩
    exact ⟨a, ha, x, hx, ht⟩

theorem transfer_succeeds (hlive : T.Live) (hc : L.Conserved) {a b : TokenAccount} {x : Mint}
    (ha : L.accounts.lookup src = some a) (hb : L.accounts.lookup dst = some b)
    (hx : L.mints.lookup a.mint = some x) (hmint : b.mint = a.mint) (ho : a.owner = auth)
    (hd : a.delegate = none) (hn : n ≤ a.amount) : ∃ L', transfer T L src dst auth n = .ok L' := by
  have hfit : src ≠ dst → b.amount + n < 2 ^ 64 := by
    intro hne
    have htwo := Ledger.amount_add_le_circulating ha hb hne rfl hmint
    have hsupply := hc a.mint
    omega
  obtain ⟨L', ht⟩ := Option.isSome_iff_exists.mp
    (hlive ha hb hx rfl hmint rfl hn (ho ▸ TokenAccount.authorizes_owner hd) hfit)
  exact ⟨L', transfer_eq_ok.mpr ⟨a, x, ha, hx, ht⟩⟩

/-- The payments of an instruction, one after the other. -/
def payOut (T : TokenProgram) (mock src : Pubkey) : List (Pubkey × ℕ) → Ledger → Except Error Ledger
  | [], L => pure L
  | (k, n) :: ps, L => transfer T L src k mock n >>= payOut T mock src ps

theorem exec_eq_ok : exec T mock signer ix L = .ok L' ↔
    (∀ k ∈ [ix.source, ix.inReserve, ix.outReserve] ++ ix.outputs.map Prod.fst,
      ∃ a, L.accounts.lookup k = some a) ∧ ix.sourceAuthority = signer ∧
    ∃ L₁, transfer T L ix.source ix.inReserve ix.sourceAuthority ix.input = .ok L₁ ∧
      payOut T mock ix.outReserve ix.outputs L₁ = .ok L' := by
  cases ix with
  | swap ctx i o =>
    simp only [exec, swap, loadTokenAccount, bind_eq_ok, fromOption_eq_ok, require_eq_ok,
      Instruction.source, Instruction.inReserve, Instruction.outReserve, Instruction.outputs,
      Instruction.sourceAuthority, Instruction.input, payOut, pure_eq_ok]
    simp only [List.map_cons, List.map_nil, List.cons_append, List.nil_append, List.forall_mem_cons,
      exists_eq_right, exists_and_right, and_assoc]
    simp
  | swapSplit ctx i o₁ o₂ =>
    simp only [exec, swapSplit, loadTokenAccount, bind_eq_ok, fromOption_eq_ok, require_eq_ok,
      Instruction.source, Instruction.inReserve, Instruction.outReserve, Instruction.outputs,
      Instruction.sourceAuthority, Instruction.input, payOut, pure_eq_ok]
    simp only [List.map_cons, List.map_nil, List.cons_append, List.nil_append, List.forall_mem_cons,
      exists_eq_right, exists_and_right, and_assoc]
    simp

/-! ### Its payments -/

/-- What payments out of an account leave behind. -/
structure PaidOut (src : Pubkey) (ps : List (Pubkey × ℕ)) (L L' : Ledger) : Prop where
  kept : L.Kept L'
  mints_eq : L'.mints = L.mints
  conserved : L.Conserved → L'.Conserved
  covered : (ps.map Prod.snd).sum ≤ L.amount src
  amount : ∀ k, L'.amount k + (if k = src then (ps.map Prod.snd).sum else 0) =
    L.amount k + (ps.map fun p ↦ if k = p.1 then p.2 else 0).sum

theorem payOut_paidOut (hT : T.Plain) (h : payOut T mock src ps L = .ok L') (hsrc : ∀ p ∈ ps, p.1 ≠ src) :
    PaidOut src ps L L' := by
  induction ps generalizing L with
  | nil =>
    obtain rfl := pure_eq_ok.mp h
    exact ⟨.refl L, rfl, id, Nat.zero_le _, fun k ↦ by simp⟩
  | cons p ps ih =>
    obtain ⟨k₁, n₁⟩ := p
    obtain ⟨L₁, h₁, h⟩ := bind_eq_ok.mp h
    obtain ⟨a, x, ha, -, ht⟩ := transfer_eq_ok.mp h₁
    have hplain := hT ht
    have hrest := ih h fun p hp ↦ hsrc p (List.mem_cons_of_mem _ hp)
    have hne : k₁ ≠ src := hsrc (k₁, n₁) List.mem_cons_self
    refine ⟨hplain.kept.trans hrest.kept, hrest.mints_eq.trans hplain.mints_eq,
      fun hc ↦ hrest.conserved (hplain.conserved hc), ?_, fun k ↦ ?_⟩
    · have hcovered := hrest.covered
      have hfirst := hplain.amount_eq src
      rw [if_pos rfl, if_neg hne.symm] at hfirst
      rw [List.map_cons, List.sum_cons]
      omega
    · have hothers := hrest.amount k
      have hfirst := hplain.amount_eq k
      simp only [List.map_cons, List.sum_cons]
      by_cases hk : k = src
      · rw [if_pos hk] at hothers hfirst ⊢
        omega
      · rw [if_neg hk] at hothers hfirst ⊢
        omega

theorem payOut_succeeds (hT : T.Plain) (hlive : T.Live) (hc : L.Conserved) {a : TokenAccount} {x : Mint}
    (ha : L.accounts.lookup src = some a) (hx : L.mints.lookup a.mint = some x) (ho : a.owner = mock)
    (hd : a.delegate = none) (hn : (ps.map Prod.snd).sum ≤ a.amount)
    (hps : ∀ p ∈ ps, p.1 ≠ src ∧ ∃ b, L.accounts.lookup p.1 = some b ∧ b.mint = a.mint) :
    ∃ L', payOut T mock src ps L = .ok L' := by
  induction ps generalizing L a with
  | nil => exact ⟨L, rfl⟩
  | cons p ps ih =>
    obtain ⟨k₁, n₁⟩ := p
    rw [List.map_cons, List.sum_cons] at hn
    obtain ⟨hne, b, hb, hbm⟩ := hps (k₁, n₁) List.mem_cons_self
    have hfirst : n₁ ≤ a.amount := by omega
    obtain ⟨L₁, h₁⟩ := transfer_succeeds hlive hc ha hb hx hbm ho hd hfirst
    obtain ⟨a', x', ha', -, ht⟩ := transfer_eq_ok.mp h₁
    obtain rfl := Option.some.inj (ha.symm.trans ha')
    have hplain := hT ht
    obtain ⟨a₁, ha₁, hm₁, ho₁, hd₁⟩ := hplain.kept.some ha
    have hleft := hplain.amount_eq src
    rw [if_pos rfl, if_neg hne.symm, Ledger.amount_eq ha, Ledger.amount_eq ha₁] at hleft
    obtain ⟨L', h'⟩ := ih (hplain.conserved hc) ha₁ (by rw [hplain.mints_eq, hm₁, hx]) (ho₁.trans ho)
      (hd₁ hd) (by omega) fun p hp ↦ by
        obtain ⟨hne', b', hb', hbm'⟩ := hps p (List.mem_cons_of_mem _ hp)
        obtain ⟨b₁, hb₁, hbm₁, -⟩ := hplain.kept.some hb'
        exact ⟨hne', b₁, hb₁, hbm₁.trans (hbm'.trans hm₁.symm)⟩
    exact ⟨L', bind_eq_ok.mpr ⟨L₁, h₁, h'⟩⟩

end MockJupiter

/-! ## As a route -/

namespace Settler

open Controller (OTokenInfo amount_of_transferIfPositive)
open MockJupiter (transfer_eq_ok payOut payOut_paidOut payOut_succeeds PaidOut)

variable {D : Deployment} {T : TokenProgram} {rent : ℕ → ℕ} {verifies : Ed25519.Signed → Bool}
  {s s' s₀ : State} {tr : List (Transition State Label)} {mock : Pubkey} {ix : MockJupiter.Instruction}
  {c c' : Controller.State} {L L' : Ledger}

/-- What `physical_redeem` calls with the settler's signature when the route is an instruction of the
mock. -/
def mockRoute (D : Deployment) (T : TokenProgram) (mock : Pubkey) (ix : MockJupiter.Instruction) : Swap :=
  fun c ↦ do
    let ledger ← (MockJupiter.exec T mock D.settlerConfig ix c.ledger).mapError (Failure.map Empty.elim)
    pure { c with ledger }

theorem mockRoute_eq_ok : mockRoute D T mock ix c = .ok c' ↔
    ∃ L, MockJupiter.exec T mock D.settlerConfig ix c.ledger = .ok L ∧ c' = { c with ledger := L } := by
  rw [mockRoute, bind_eq_ok]
  constructor
  · rintro ⟨L, hL, h⟩
    refine ⟨L, ?_, (pure_eq_ok.mp h).symm⟩
    cases hexec : MockJupiter.exec T mock D.settlerConfig ix c.ledger with
    | error e => simp [hexec, Except.mapError] at hL
    | ok L₁ => simpa [hexec, Except.mapError] using hL
  · rintro ⟨L, hL, rfl⟩
    exact ⟨L, by simp [hL, Except.mapError], rfl⟩

theorem run_of_payOut {src : Pubkey} {ps : List (Pubkey × ℕ)} (hmock : ¬D.IsControllerPda mock)
    (hu : c.ledger.Undelegated D.IsControllerPda) (h : payOut T mock src ps c.ledger = .ok L) :
    ∃ tr, Run (Controller.Step D T) c tr { c with ledger := L } ∧ ∀ t ∈ tr, t.label = .token := by
  induction ps generalizing c with
  | nil =>
    obtain rfl := pure_eq_ok.mp h
    exact ⟨[], .nil, by simp⟩
  | cons p ps ih =>
    obtain ⟨L₁, h₁, h⟩ := bind_eq_ok.mp h
    obtain ⟨a, x, -, -, ht⟩ := transfer_eq_ok.mp h₁
    have hstep := step_of_transfer hu hmock ht
    obtain ⟨tr, hrun, htr⟩ := ih (c := { c with ledger := L₁ }) (hstep.move.undelegated hu) h
    refine ⟨_, (Run.single hstep).append hrun, fun t ht ↦ ?_⟩
    rcases List.mem_append.mp ht with hfirst | hrest
    · rw [List.mem_singleton.mp hfirst]
    · exact htr t hrest

/-- What a route through the mock does with the settler's signature are transfers. -/
theorem mockRoute_through (hmock : ¬D.IsControllerPda mock) :
    (mockRoute D T mock ix).Through D T (· = .token) := by
  intro c c' hu h
  obtain ⟨L, hL, rfl⟩ := mockRoute_eq_ok.mp h
  obtain ⟨-, hauth, L₁, h₁, hL⟩ := MockJupiter.exec_eq_ok.mp hL
  obtain ⟨a, x, -, -, ht⟩ := transfer_eq_ok.mp h₁
  rw [hauth] at ht
  have hstep := step_of_transfer hu D.not_isControllerPda_settlerConfig ht
  obtain ⟨tr, hrun, htr⟩ := run_of_payOut (c := { c with ledger := L₁ }) hmock
    (hstep.move.undelegated hu) hL
  refine ⟨_, (Run.single hstep).append hrun, fun t ht ↦ ?_⟩
  rcases List.mem_append.mp ht with hfirst | hrest
  · rw [List.mem_singleton.mp hfirst]
  · exact htr t hrest

/-- **A route through the mock is ordinary**: anybody could do the same with a token account of its own. -/
theorem mockRoute_ordinary (hmock : ¬D.IsControllerPda mock) : (mockRoute D T mock ix).Ordinary D T := by
  intro c c' hu h
  obtain ⟨tr, hrun, htoken⟩ := mockRoute_through hmock c c' hu h
  refine ⟨tr, hrun, fun t ht ↦ ?_⟩
  rw [htoken t ht]
  simp

/-! ## The route decides -/

/-- The route goes from the settler's account for the collateral to reserves of the mock, and from there to
accounts for the asset of the delivery, which is neither the collateral nor the series. -/
structure Market (D : Deployment) (s : State) (ctx : PhysicalRedeem) (acc : Custody) (mock : Pubkey)
    (ix : MockJupiter.Instruction) : Prop where
  source_eq : ix.source = ctx.settlerCollateralAccount
  authority_eq : ix.sourceAuthority = D.settlerConfig
  inReserve : ∃ a, s.ctrl.ledger.accounts.lookup ix.inReserve = some a ∧
    a.mint = acc.info.collateralMint ∧ a.owner = mock
  outReserve : ∃ a, s.ctrl.ledger.accounts.lookup ix.outReserve = some a ∧ a.mint = ctx.contraMint ∧
    a.owner = mock ∧ a.delegate = none
  destination : ∀ p ∈ ix.outputs, p.1 ≠ ix.outReserve ∧
    ∃ b, s.ctrl.ledger.accounts.lookup p.1 = some b ∧ b.mint = ctx.contraMint
  collateral_ne : acc.info.collateralMint ≠ ctx.contraMint
  otoken_ne : ctx.contraMint ≠ ctx.otokenMint
  user_ne : ctx.user ≠ mock

/-- What the settler's checks come to for a route of the mock. -/
def PhysicalRedeem.Admits (s : State) (ctx : PhysicalRedeem) (isPut : Bool) (payout owed m : ℕ)
    (ix : MockJupiter.Instruction) : Prop :=
  0 < ix.input ∧ ix.input ≤ m ∧ ix.output ≤ s.ctrl.ledger.amount ix.outReserve ∧
    if isPut then ix.input ≤ payout ∧ owed ≤ ix.outputTo ctx.userContraAccount ∧
      ix.outputTo ctx.settlerContraAccount = 0
    else ix.input = payout ∧ owed ≤ ix.outputTo ctx.settlerContraAccount ∧
      ix.outputTo ctx.userContraAccount = 0

theorem ne_of_mint {k k' : Pubkey} {a b : TokenAccount} (ha : L.accounts.lookup k = some a)
    (hb : L.accounts.lookup k' = some b) (hne : a.mint ≠ b.mint) : k ≠ k' := by
  rintro rfl
  exact hne (by rw [Option.some.inj (ha.symm.trans hb)])

section Market

variable {ctx : PhysicalRedeem} {acc : Custody} {n m owed : ℕ}

theorem Market.outputTo_eq_zero (hm : Market D s ctx acc mock ix) {k : Pubkey} {a : TokenAccount}
    (ha : s.ctrl.ledger.accounts.lookup k = some a) (hne : a.mint ≠ ctx.contraMint) : ix.outputTo k = 0 := by
  rw [MockJupiter.Instruction.outputTo, List.sum_eq_zero_iff]
  intro r hr
  obtain ⟨p, hp, rfl⟩ := List.mem_map.mp hr
  obtain ⟨-, b, hb, hbm⟩ := hm.destination p hp
  exact if_neg (ne_of_mint ha hb (hbm ▸ hne))

theorem Market.moved (hT : T.Plain) (hm : Market D s ctx acc mock ix)
    (hexec : MockJupiter.exec T mock D.settlerConfig ix c.ledger = .ok L) :
    c.ledger.Kept L ∧ (c.ledger.Conserved → L.Conserved) ∧ L.mints = c.ledger.mints ∧
      ix.output ≤ c.ledger.amount ix.outReserve ∧
      ∀ k, L.amount k + (if k = ix.source then ix.input else 0) + (if k = ix.outReserve then ix.output else 0) =
        c.ledger.amount k + (if k = ix.inReserve then ix.input else 0) + ix.outputTo k := by
  obtain ⟨-, -, L₁, h₁, hL⟩ := MockJupiter.exec_eq_ok.mp hexec
  obtain ⟨a, x, -, -, ht⟩ := transfer_eq_ok.mp h₁
  have hplain := hT ht
  have hpaid := payOut_paidOut hT hL fun p hp ↦ (hm.destination p hp).1
  obtain ⟨a₁, ha₁, hm₁, -⟩ := hm.inReserve
  obtain ⟨a₂, ha₂, hm₂, -⟩ := hm.outReserve
  have hne : ix.outReserve ≠ ix.inReserve := ne_of_mint ha₂ ha₁ (by rw [hm₁, hm₂]; exact hm.collateral_ne.symm)
  refine ⟨hplain.kept.trans hpaid.kept, fun hc ↦ hpaid.conserved (hplain.conserved hc),
    hpaid.mints_eq.trans hplain.mints_eq, ?_, fun k ↦ ?_⟩
  · have hcovered := hpaid.covered
    have htaken := hplain.amount_eq ix.outReserve
    rw [if_neg hne] at htaken
    rw [MockJupiter.Instruction.output]
    omega
  · have htaken := hplain.amount_eq k
    have hgiven := hpaid.amount k
    rw [MockJupiter.Instruction.output, MockJupiter.Instruction.outputTo]
    omega

theorem Market.untouched (h : ctx.Ready D s acc n owed)
    (hm : Market D s ctx acc mock ix)
    (hr : ctx.toRedeemForMM.Redeemed D T s acc n c (acc.info.payout n) (acc.info.payout n)) {k : Pubkey}
    {a : TokenAccount} (ha : s.ctrl.ledger.accounts.lookup k = some a) (hamint : a.mint = ctx.contraMint) :
    c.ledger.amount k = s.ctrl.ledger.amount k := by
  obtain ⟨o, ho, hom, -⟩ := h.loaded.settlerOtoken
  obtain ⟨p, hp, hpm, -⟩ := h.pool
  have hcollateral : k ≠ ctx.settlerCollateralAccount := ne_of_mint ha h.loaded.settlerCollateral_eq
    (by rw [hamint, h.loaded.settlerCollateral_mint]; exact hm.collateral_ne.symm)
  have hotoken : k ≠ ctx.settlerOtokenAccount := ne_of_mint ha ho (by rw [hamint, hom]; exact hm.otoken_ne)
  have hpool : k ≠ ctx.poolTokenAccount :=
    ne_of_mint ha hp (by rw [hamint, hpm]; exact hm.collateral_ne.symm)
  have hamount := hr.amounts k
  rwa [if_neg hotoken, if_neg hpool, if_neg hcollateral] at hamount

theorem Market.balances (hT : T.Plain) (hmock : mock ≠ D.settlerConfig) (h : ctx.Ready D s acc n owed)
    (hm : Market D s ctx acc mock ix)
    (hr : ctx.toRedeemForMM.Redeemed D T s acc n c (acc.info.payout n) (acc.info.payout n))
    (hexec : MockJupiter.exec T mock D.settlerConfig ix c.ledger = .ok L) :
    L.amount ctx.settlerCollateralAccount + ix.input =
        s.ctrl.ledger.amount ctx.settlerCollateralAccount + acc.info.payout n ∧
      L.amount ctx.userContraAccount =
        s.ctrl.ledger.amount ctx.userContraAccount + ix.outputTo ctx.userContraAccount ∧
      L.amount ctx.settlerContraAccount =
        s.ctrl.ledger.amount ctx.settlerContraAccount + ix.outputTo ctx.settlerContraAccount ∧
      ix.output ≤ s.ctrl.ledger.amount ix.outReserve := by
  obtain ⟨-, -, -, hcovered, hmoved⟩ := hm.moved hT hexec
  obtain ⟨i, hi, him, hio⟩ := hm.inReserve
  obtain ⟨o, ho, hom, hoo, -⟩ := hm.outReserve
  obtain ⟨st, hst, hstm, hsto, -⟩ := h.settlerContra
  obtain ⟨uc, huc, hucm, huco⟩ := h.userContra
  have hsource := hr.settlerCollateral
  have hcontra := hm.untouched h hr hst hstm
  have huser := hm.untouched h hr huc hucm
  rw [hm.untouched h hr ho hom] at hcovered
  -- accounts of the collateral and of the other asset are different
  have hmint : ∀ {k k' : Pubkey} {a b : TokenAccount}, s.ctrl.ledger.accounts.lookup k = some a →
      s.ctrl.ledger.accounts.lookup k' = some b → a.mint = ctx.contraMint → b.mint = acc.info.collateralMint →
        k ≠ k' := fun ha hb hma hmb ↦ ne_of_mint ha hb (by rw [hma, hmb]; exact hm.collateral_ne.symm)
  have hsc := h.loaded.settlerCollateral_eq
  have hscm := h.loaded.settlerCollateral_mint
  have howns : s.ctrl.ledger.Owns mock ix.outReserve := ⟨o, ho, hoo⟩
  have hscIn : ctx.settlerCollateralAccount ≠ ix.inReserve := by
    have hin : s.ctrl.ledger.Owns mock ix.inReserve := ⟨i, hi, hio⟩
    exact (hin.ne ⟨_, hsc, h.loaded.settlerCollateral_owner⟩ hmock).symm
  have hscOut := (hmint ho hsc hom hscm).symm
  have hstOut : ctx.settlerContraAccount ≠ ix.outReserve := (howns.ne ⟨_, hst, hsto⟩ hmock).symm
  have hucOut : ctx.userContraAccount ≠ ix.outReserve := (howns.ne ⟨_, huc, huco⟩ hm.user_ne.symm).symm
  have hatSource := hmoved ctx.settlerCollateralAccount
  have hatUser := hmoved ctx.userContraAccount
  have hatContra := hmoved ctx.settlerContraAccount
  rw [hm.source_eq, if_pos rfl, if_neg hscOut, if_neg hscIn,
    hm.outputTo_eq_zero hsc (by rw [hscm]; exact hm.collateral_ne)] at hatSource
  rw [hm.source_eq, if_neg (hmint huc hsc hucm hscm), if_neg hucOut, if_neg (hmint huc hi hucm him)] at hatUser
  rw [hm.source_eq, if_neg (hmint hst hsc hstm hscm), if_neg hstOut,
    if_neg (hmint hst hi hstm him)] at hatContra
  omega

/-- The route goes through if the settler has what it takes and the reserve what it pays. -/
theorem Market.executes (hT : T.Plain) (hlive : T.Live) (hw : Controller.WellFormed D c)
    (h : ctx.Ready D s acc n owed) (hm : Market D s ctx acc mock ix)
    (hr : ctx.toRedeemForMM.Redeemed D T s acc n c (acc.info.payout n) (acc.info.payout n))
    (hmints : ∀ {m x}, s.ctrl.ledger.mints.lookup m = some x →
      ∃ supply, c.ledger.mints.lookup m = some { x with supply })
    (hin : ix.input ≤ acc.info.payout n) (hout : ix.output ≤ s.ctrl.ledger.amount ix.outReserve) :
    ∃ L, MockJupiter.exec T mock D.settlerConfig ix c.ledger = .ok L := by
  obtain ⟨i, hi, him, hio⟩ := hm.inReserve
  obtain ⟨o, ho, hom, hoo, hod⟩ := hm.outReserve
  have hsource := hr.settlerCollateral
  have hreserve := hm.untouched h hr ho hom
  obtain ⟨a₁, ha₁, hm₁, ho₁, hd₁⟩ := hr.kept.some h.loaded.settlerCollateral_eq
  obtain ⟨i₁, hi₁, him₁, -, -⟩ := hr.kept.some hi
  obtain ⟨o₁, ho₁', hom₁, hoo₁, hod₁⟩ := hr.kept.some ho
  rw [Ledger.amount_eq ha₁] at hsource
  rw [Ledger.amount_eq ho₁'] at hreserve
  obtain ⟨x, hx⟩ := hmints (h.mint_key ▸ h.loaded.collateralMint_eq)
  obtain ⟨y, hy, -⟩ := h.owed_eq
  obtain ⟨z, hz⟩ := hmints hy
  have hcoll : a₁.mint = acc.info.collateralMint := hm₁.trans h.loaded.settlerCollateral_mint
  obtain ⟨L₁, h₁⟩ := MockJupiter.transfer_succeeds (n := ix.input) hlive hw.conserved ha₁ hi₁ (hcoll ▸ hx)
    (him₁.trans (him.trans hcoll.symm)) (ho₁.trans h.loaded.settlerCollateral_owner)
    (hd₁ h.settlerCollateral) (by omega)
  obtain ⟨a', x', -, -, ht⟩ := transfer_eq_ok.mp h₁
  have hplain := hT ht
  obtain ⟨o₂, ho₂, hom₂, hoo₂, hod₂⟩ := hplain.kept.some ho₁'
  have hcontra : o₂.mint = ctx.contraMint := hom₂.trans (hom₁.trans hom)
  have hgained : o₁.amount ≤ o₂.amount := by
    have hle := hplain.le_amount (k := ix.outReserve)
      (ne_of_mint ho₁' ha₁ (by rw [hom₁, hom, hcoll]; exact hm.collateral_ne.symm))
    rwa [Ledger.amount_eq ho₁', Ledger.amount_eq ho₂] at hle
  have hcovered : ix.output ≤ o₂.amount := by omega
  obtain ⟨L, hL⟩ : ∃ L, payOut T mock ix.outReserve ix.outputs L₁ = .ok L := by
    refine payOut_succeeds hT hlive (hplain.conserved hw.conserved) ho₂
      (by rw [hplain.mints_eq, hcontra]; exact hz) (hoo₂.trans (hoo₁.trans hoo)) (hod₂ (hod₁ hod)) hcovered
      fun p hp ↦ ?_
    obtain ⟨hne, b, hb, hbm⟩ := hm.destination p hp
    obtain ⟨b', hb', hbm', -⟩ := (hr.kept.trans hplain.kept).some hb
    exact ⟨hne, b', hb', hbm'.trans (hbm.trans hcontra.symm)⟩
  refine ⟨L, MockJupiter.exec_eq_ok.mpr ⟨fun k hk ↦ ?_, hm.authority_eq, L₁, ?_, hL⟩⟩
  · rcases List.mem_append.mp hk with hfirst | hrest
    · simp only [List.mem_cons, List.not_mem_nil, or_false] at hfirst
      rcases hfirst with rfl | rfl | rfl
      · exact ⟨a₁, hm.source_eq ▸ ha₁⟩
      · exact ⟨i₁, hi₁⟩
      · exact ⟨o₁, ho₁'⟩
    · obtain ⟨p, hp, rfl⟩ := List.mem_map.mp hrest
      obtain ⟨-, b, hb, -⟩ := hm.destination p hp
      obtain ⟨b', hb', -⟩ := hr.kept.some hb
      exact ⟨b', hb'⟩
  · rw [hm.source_eq, hm.authority_eq]
    exact h₁

/-- The settler's checks are what the route is told to take and to pay. -/
theorem Market.accepts_iff (hT : T.Plain) (hmock : mock ≠ D.settlerConfig) (h : ctx.Ready D s acc n owed)
    (hm : Market D s ctx acc mock ix)
    (hr : ctx.toRedeemForMM.Redeemed D T s acc n c (acc.info.payout n) (acc.info.payout n))
    (hexec : MockJupiter.exec T mock D.settlerConfig ix c.ledger = .ok L) :
    ctx.Accepts s acc.info.isPut (acc.info.payout n) owed m L ↔
      ctx.Admits s acc.info.isPut (acc.info.payout n) owed m ix := by
  obtain ⟨hsource, huser, hcontra, hcovered⟩ := hm.balances hT hmock h hr hexec
  rw [PhysicalRedeem.Accepts, PhysicalRedeem.Admits]
  constructor
  · rintro ⟨used, hpos, hmax, hused, hside⟩
    obtain rfl : used = ix.input := by omega
    refine ⟨hpos, hmax, hcovered, ?_⟩
    cases hisPut : acc.info.isPut with
    | true =>
      rw [hisPut, if_pos rfl] at hside
      rw [if_pos rfl]
      omega
    | false =>
      rw [hisPut, if_neg Bool.false_ne_true] at hside
      rw [if_neg Bool.false_ne_true]
      omega
  · rintro ⟨hpos, hmax, -, hside⟩
    refine ⟨ix.input, hpos, hmax, hsource, ?_⟩
    cases hisPut : acc.info.isPut with
    | true =>
      rw [hisPut, if_pos rfl] at hside
      rw [if_pos rfl]
      omega
    | false =>
      rw [hisPut, if_neg Bool.false_ne_true] at hside
      rw [if_neg Bool.false_ne_true]
      omega

end Market

/-! ## Every delivery through the mock -/

/-- What is left for the maker: of the collateral of a put, or of what the route paid the settler for that of
a call. -/
def PhysicalRedeem.surplus (ctx : PhysicalRedeem) (info : OTokenInfo) (n owed : ℕ)
    (ix : MockJupiter.Instruction) : ℕ :=
  if info.isPut then info.payout n - ix.input else ix.outputTo ctx.settlerContraAccount - owed

/-- What a delivery does to every account: the oTokens are burned, the pool pays out, the mock takes and pays,
and what it paid the settler goes on to the user and the maker. -/
def PhysicalRedeem.Exchanged (s : State) (ctx : PhysicalRedeem) (info : OTokenInfo) (n owed : ℕ)
    (ix : MockJupiter.Instruction) (s' : State) : Prop :=
  ∀ k, s'.ctrl.ledger.amount k + (if k = ctx.settlerOtokenAccount then n else 0) +
      (if k = ctx.poolTokenAccount then info.payout n else 0) + (if k = ix.outReserve then ix.output else 0) =
    s.ctrl.ledger.amount k + (if k = ix.inReserve then ix.input else 0) +
      (if k = ctx.settlerContraAccount then 0 else ix.outputTo k) +
      (if k = ctx.userContraAccount then if info.isPut then 0 else owed else 0) +
      (if k = ctx.mmCollateralAccount then ctx.surplus info n owed ix else 0)

section Delivery

variable {ctx : PhysicalRedeem} {acc : Custody} {n m owed : ℕ}

theorem Market.exchanged (hT : T.Plain) (hmock : mock ≠ D.settlerConfig) (hw : Controller.WellFormed D s.ctrl)
    (h : ctx.Ready D s acc n owed) (hm : Market D s ctx acc mock ix)
    (hok : physicalRedeem D T ctx n m (mockRoute D T mock ix) s = .ok s') :
    ctx.Exchanged s acc.info n owed ix s' := by
  obtain ⟨r, he⟩ := physicalRedeem_effect hok
  obtain rfl := h.loaded.unique he.loaded
  have hr := h.redeemed hT hw he.redeem
  obtain ⟨L, hexec, hswapped⟩ := mockRoute_eq_ok.mp he.swap
  have hledger : r.swapped.ledger = L := by rw [hswapped]
  obtain ⟨hsource, huser, hcontra, -⟩ := hm.balances hT hmock h hr hexec
  obtain ⟨-, -, -, -, hmoved⟩ := hm.moved hT hexec
  have howed : r.contraAmount = owed := by
    obtain ⟨x, hx, hx'⟩ := h.owed_eq
    obtain rfl := Option.some.inj (hx.symm.trans he.contraMint_eq)
    exact Except.ok.inj (he.contraAmount_eq.symm.trans hx')
  have hbefore := hr.settlerCollateral
  have hreceived := he.received
  have hused := he.used
  have hcollateral : s.ctrl.ledger.amount ctx.settlerCollateralAccount = r.acc.settlerCollateral.amount :=
    Ledger.amount_eq he.loaded.settlerCollateral_eq
  have hstart : s.ctrl.ledger.amount ctx.settlerContraAccount = r.settlerContra.amount :=
    Ledger.amount_eq he.settlerContra_eq
  have hdelta := he.settlerContra_delta
  intro k
  have hredeemed := hr.amounts k
  have hrouted := hmoved k
  rw [hledger] at hused hdelta
  rw [hm.source_eq] at hrouted
  rw [PhysicalRedeem.surplus]
  cases hside : r.acc.info.isPut with
  | true =>
    obtain ⟨-, hzero, -⟩ := he.put hside
    obtain ⟨surplus, hsurplus, hpaid⟩ := he.put_amounts hT hside
    have hpaid := hpaid k
    rw [hledger] at hpaid
    obtain rfl : surplus = r.acc.info.payout n - ix.input := by omega
    have hcontraZero : ix.outputTo ctx.settlerContraAccount = 0 := by omega
    have hother : (if k = ctx.settlerContraAccount then 0 else ix.outputTo k) = ix.outputTo k := by
      split
      · rename_i hk
        rw [hk, hcontraZero]
      · rfl
    rw [if_pos rfl, if_pos rfl, hother, ite_self]
    by_cases hk : k = ctx.settlerCollateralAccount
    · rw [if_pos hk] at hredeemed hrouted hpaid
      omega
    · rw [if_neg hk] at hredeemed hrouted hpaid
      omega
  | false =>
    obtain ⟨hall, -, -⟩ := he.call hside
    obtain ⟨surplus, paid, d, hsurplus, -, hdelivered, hpaid⟩ := he.call_amounts hT hside
    have hdelivered := hdelivered k
    have hpaid := hpaid k
    rw [hledger, howed] at hdelivered
    have hpayout : r.acc.info.payout n = ix.input := by omega
    have hgained : ix.outputTo ctx.settlerContraAccount = owed + surplus := by omega
    rw [if_neg Bool.false_ne_true, if_neg Bool.false_ne_true, hgained, Nat.add_sub_cancel_left, hpayout]
    rw [hpayout] at hredeemed
    by_cases hk : k = ctx.settlerContraAccount
    · rw [if_pos hk] at hdelivered hpaid ⊢
      have hto : ix.outputTo k = owed + surplus := by rw [hk, hgained]
      omega
    · rw [if_neg hk] at hdelivered hpaid ⊢
      omega

/-- **What comes of a delivery through the mock.** In every reachable state in which everything but the route
is in order: a route through the mock is ordinary; the delivery goes through if and only if the route takes
some of the collateral that was redeemed, for a call all of it, within the limit, pays at least what is owed
to the account meant for it and nothing to the other, and is covered by the reserve; and then everybody has
exactly what that comes to. -/
theorem delivery_through_mock (hT : T.Plain) (hlive : T.Live) (hburn : T.BurnLive) (hmock : ¬D.IsPda mock)
    (hrun : Run (Step D T rent verifies) s₀ tr s) (h₀ : Initial D s₀) (h : ctx.Ready D s acc n owed)
    (hm : Market D s ctx acc mock ix) :
    (mockRoute D T mock ix).Ordinary D T ∧
    ((∃ s', physicalRedeem D T ctx n m (mockRoute D T mock ix) s = .ok s') ↔
      ctx.Admits s acc.info.isPut (acc.info.payout n) owed m ix) ∧
    ∀ s', physicalRedeem D T ctx n m (mockRoute D T mock ix) s = .ok s' →
      ctx.Exchanged s acc.info n owed ix s' := by
  have hrec := recorded_of_run hrun h₀
  have hw := hrec.wellFormed
  have hne : mock ≠ D.settlerConfig := ne_settlerConfig_of_not_isPda hmock
  refine ⟨mockRoute_ordinary (D.not_isControllerPda_of_not_isPda hmock), ⟨?_, fun hadmits ↦ ?_⟩,
    fun s' hok ↦ hm.exchanged hT hne hw h hok⟩
  · rintro ⟨s', hok⟩
    obtain ⟨c, c', hredeem, hswap, haccepts⟩ := h.accepts hT hw hok
    obtain ⟨L, hexec, rfl⟩ := mockRoute_eq_ok.mp hswap
    exact (hm.accepts_iff hT hne h (h.redeemed hT hw hredeem) hexec).mp haccepts
  · have hcustody : 0 < s.custody ⟨acc.balance.maker, ctx.otokenMint⟩ := by
      rw [State.custody, ← h.key_eq, h.loaded.balance_eq, Option.elim_some]
      exact h.amount_pos.trans_le h.covered
    obtain ⟨k, hk⟩ := computable_of_custody hrun h₀ hcustody (h.loaded.info_eq_of_seed h.info_seed)
    obtain ⟨c, hredeem⟩ := h.redeems hlive hburn hw hk
    have hr := h.redeemed hT hw hredeem
    have hmove := (step_of_exec (.redeem (ctx.redeem D) n) rfl trivial hredeem).move
    have hin : ix.input ≤ acc.info.payout n := by
      obtain ⟨-, -, -, hside⟩ := hadmits
      split at hside
      · exact hside.1
      · exact hside.1.le
    obtain ⟨L, hexec⟩ := hm.executes hT hlive (hmove.wellFormed hw) h hr (hmove.mint_kept (by simp)) hin
      hadmits.2.2.1
    obtain ⟨hkept, hcons, hmints, -⟩ := hm.moved hT hexec
    exact h.succeeds hT hlive hrec (booked_of_run hrun h₀) hredeem (mockRoute_eq_ok.mpr ⟨L, hexec, rfl⟩)
      hkept (hcons (hmove.conserved hw.conserved)) hmints
      ((hm.accepts_iff hT hne h hr hexec).mpr hadmits)

end Delivery

section Sample

/-- What the accounts of the sample delivery hold. -/
def sampleDelivered : Custody := { sampleCustody with mmCollateral := ⟨15, otherKey, 0, none, 0⟩ }

theorem samplePhysicalRedeem_ready :
    samplePhysicalRedeem.Ready sampleDeployment (sampleRun sampleExercised) sampleDelivered 1000000 50000 where
  operator := ⟨⟨1, 1, 2, 100, false, 259200, 7⟩, by decide +kernel, rfl, rfl, rfl⟩
  unpaused := ⟨⟨1, 0, false, false⟩, by decide +kernel, rfl⟩
  loaded :=
    { balance_eq := by decide +kernel
      info_eq := by decide +kernel
      collateralMint_eq := by decide +kernel
      settlerOtoken := ⟨⟨20, 4, 1000000, none, 0⟩, by decide +kernel, rfl, rfl⟩
      settlerCollateral_eq := by decide +kernel
      settlerCollateral_mint := rfl
      settlerCollateral_owner := rfl
      mmCollateral_eq := by decide +kernel }
  key_eq := rfl
  info_seed := rfl
  mint_key := rfl
  authority := rfl
  settlerOtoken a ha := by
    have heq : (sampleRun sampleExercised).ctrl.ledger.accounts.lookup 41 = some ⟨20, 4, 1000000, none, 0⟩ := by
      decide +kernel
    obtain rfl := Option.some.inj (heq.symm.trans ha)
    exact ⟨by decide, by decide⟩
  settlerCollateral := rfl
  settlerContra := ⟨⟨15, 4, 0, none, 0⟩, by decide +kernel, rfl, rfl, rfl⟩
  userContra := ⟨⟨15, 1, 0, none, 0⟩, by decide +kernel, rfl, rfl⟩
  mmCollateral_mint := rfl
  mmCollateral_owner := rfl
  pool := ⟨⟨10, sampleDeployment.poolVaultAuth 10, 10000, none, 0⟩, by decide +kernel, rfl, rfl,
    by decide +kernel⟩
  vault := ⟨⟨4, 0, 10, 10000, 20, 1000000, false, 1⟩, by decide +kernel, rfl, rfl⟩
  vaultMM := ⟨⟨otherKey, ⟨4, 0⟩, 20, 1000000⟩, by decide +kernel, rfl, rfl, by decide⟩
  amount_pos := by decide
  covered := by decide
  expired := by decide +kernel
  priced := by decide
  itm := by decide +kernel
  contra_eq := rfl
  owed_eq := ⟨⟨none, 1000000, 6⟩, by decide +kernel, by decide +kernel⟩

/-- The market of address `9` has reserves `18` and `17`. Of what it pays for the collateral, `leaked` goes
past the settler to the user. -/
def sampleSplit (leaked : ℕ) : MockJupiter.Instruction :=
  .swapSplit ⟨42, 18, 17, 43, 33, 4⟩ 10000 50500 leaked

theorem sampleMarket (leaked : ℕ) : Market sampleDeployment (sampleRun sampleExercised) samplePhysicalRedeem
    sampleDelivered 9 (sampleSplit leaked) := by
  have hin : (sampleRun sampleExercised).ctrl.ledger.accounts.lookup 18 = some ⟨10, 9, 0, none, 0⟩ := by
    decide +kernel
  have hout : (sampleRun sampleExercised).ctrl.ledger.accounts.lookup 17 = some ⟨15, 9, 1000000, none, 0⟩ := by
    decide +kernel
  have hsettler : (sampleRun sampleExercised).ctrl.ledger.accounts.lookup 43 = some ⟨15, 4, 0, none, 0⟩ := by
    decide +kernel
  have huser : (sampleRun sampleExercised).ctrl.ledger.accounts.lookup 33 = some ⟨15, 1, 0, none, 0⟩ := by
    decide +kernel
  exact
    { source_eq := rfl
      authority_eq := rfl
      inReserve := ⟨_, hin, rfl, rfl⟩
      outReserve := ⟨_, hout, rfl, rfl, rfl⟩
      destination := by
        intro p hp
        simp only [sampleSplit, MockJupiter.Instruction.outputs, List.mem_cons, List.not_mem_nil,
          or_false] at hp
        rcases hp with rfl | rfl
        · exact ⟨show (43 : Pubkey) ≠ 17 by decide, _, hsettler, rfl⟩
        · exact ⟨show (33 : Pubkey) ≠ 17 by decide, _, huser, rfl⟩
      collateral_ne := by decide
      otoken_ne := by decide
      user_ne := by decide }

/-- Unless something leaks, the delivery goes through, and the maker gets the `500` units that the user is not
owed; if anything does, it fails. -/
theorem delivery_through_mock_sample :
    (∃ s', physicalRedeem sampleDeployment splToken samplePhysicalRedeem 1000000 10000
        (mockRoute sampleDeployment splToken 9 (sampleSplit 0)) (sampleRun sampleExercised) = .ok s' ∧
      s'.ctrl.ledger.amount 19 = 500) ∧
    ∀ leaked, 0 < leaked → ¬∃ s', physicalRedeem sampleDeployment splToken samplePhysicalRedeem 1000000 10000
      (mockRoute sampleDeployment splToken 9 (sampleSplit leaked)) (sampleRun sampleExercised) = .ok s' := by
  have hmock : ¬sampleDeployment.IsPda 9 := sampleDeployment_not_isPda (by decide) (by decide) (by decide)
  have hrun : Run (Step sampleDeployment splToken id sampleScheme) sampleState (sampleTrace sampleExercised)
      (sampleRun sampleExercised) := sampleRun_run (by decide +kernel) (by decide +kernel)
  constructor
  · obtain ⟨-, hiff, hexchanged⟩ := delivery_through_mock (m := 10000) splToken_plain splToken_live
      splToken_burnLive hmock hrun sampleState_initial samplePhysicalRedeem_ready (sampleMarket 0)
    have hadmits : samplePhysicalRedeem.Admits (sampleRun sampleExercised) sampleDelivered.info.isPut
        (sampleDelivered.info.payout 1000000) 50000 10000 (sampleSplit 0) :=
      ⟨by decide, by decide, by decide +kernel, by decide +kernel⟩
    obtain ⟨s', hs'⟩ := hiff.mpr hadmits
    have hempty : (sampleRun sampleExercised).ctrl.ledger.amount 19 = 0 := by decide +kernel
    have hmaker := hexchanged s' hs' 19
    rw [hempty] at hmaker
    exact ⟨s', hs', hmaker⟩
  · rintro leaked hpos hok
    obtain ⟨-, hiff, -⟩ := delivery_through_mock (m := 10000) splToken_plain splToken_live
      splToken_burnLive hmock hrun sampleState_initial samplePhysicalRedeem_ready (sampleMarket leaked)
    obtain ⟨-, -, -, -, -, hzero⟩ := hiff.mp hok
    have hleaked : (sampleSplit leaked).outputTo 33 = leaked := by
      simp [sampleSplit, MockJupiter.Instruction.outputTo, MockJupiter.Instruction.outputs]
    have hnone : (sampleSplit leaked).outputTo 33 = 0 := hzero
    omega

end Sample

end Settler

end OptionsProtocol
