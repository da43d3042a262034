import OptionsProtocol.Platform.Machine
import OptionsProtocol.Settler.MockJupiter

/-!
# The story of a delivery

A delivery is the last of three events that parties who need not know each other bring about at different
times. A user sells into a maker's quote, which opens a vault. The series expires, and somebody who may submits
its price to the oracle. The operator has oTokens of the maker exercised against the vault, and the user is
paid.

Followed backwards through a run of the whole platform, every delivery has exactly this story: on the terms
the factory recorded, at the one price ever submitted for the underlying and the expiry, after the order it
belongs to, and within the amount of the order together with the other deliveries out of the vault.
-/

namespace OptionsProtocol

namespace Platform

open OtokenFactory (SeriesAddresses)
open Controller (VaultKey OTokenInfo)

variable {D : Deployment} {T : TokenProgram} {A : SeriesAddresses D} {rent : ℕ → ℕ}
  {verifies : Ed25519.Signed → Bool} {s s' s₀ : State} {l : Label} {tr : List (Transition State Label)}
  {info : OTokenInfo} {k : VaultKey}

/-! ## The order -/

/-- An order under a quote in the maker's name opens the vault `k` for the user. -/
def Label.Opens (verifies : Ed25519.Signed → Bool) (k : VaultKey) (maker user otokenMint : Pubkey)
    (ord : Settler.Order) : Label → Prop
  | .settler ix => (Settler.Label.call ix).Opens verifies k maker user otokenMint ord
  | _ => False

/-- The oTokens a step delivers out of a vault. -/
def deliveredFrom (k : VaultKey) (t : Transition State Label) : ℕ :=
  match t.label with
  | .settler ix => (Settler.Label.call ix).deliveredFrom k
  | _ => 0

theorem deliveredTotal_settled (k : VaultKey) (tr : List (Transition State Label)) :
    Settler.deliveredTotal k (tr.filterMap (Transition.seen State.settler (Label.settled A))) =
      Run.history (deliveredFrom k) tr := by
  rw [Settler.deliveredTotal, Run.history_seen]
  congr 1
  funext t
  obtain ⟨u, l, u'⟩ := t
  cases l with
  | settler ix => rfl
  | protocol l =>
    cases hl : l.seen A with
    | none => simp [Transition.seen, Label.settled, deliveredFrom, hl]
    | some m => simp [Transition.seen, Label.settled, deliveredFrom, Settler.Label.deliveredFrom, hl]
  | lamports => rfl

theorem Label.opens_of_settled {m : Settler.Label} {maker user otokenMint : Pubkey} {ord : Settler.Order}
    (hl : l.settled A = some m) (h : m.Opens verifies k maker user otokenMint ord) :
    l.Opens verifies k maker user otokenMint ord := by
  obtain ⟨ctx, tx, i, rfl, hopens⟩ := h
  cases l with
  | settler ix =>
    obtain rfl := Settler.Label.call.inj (Option.some.inj hl)
    exact ⟨ctx, tx, i, rfl, hopens⟩
  | protocol l =>
    obtain ⟨m, -, hm⟩ := Option.map_eq_some_iff.mp hl
    cases hm
  | lamports => cases hl

/-- **Every record was written by an order** of the run. -/
theorem order_of_record (hrun : Run (Step D T A rent verifies) s₀ tr s) (h₀ : Initial D s₀)
    {vm : Settler.VaultMM} (hvm : s.settler.vaultMMs.lookup k = some vm) :
    ∃ as t bs ord user, tr = as ++ t :: bs ∧ t.label.Opens verifies k vm.maker user vm.otokenMint ord ∧
      ord.Open D s.settler k vm.maker user vm.otokenMint t.pre.settler.ctrl.clock
        (Run.history (deliveredFrom k) bs) := by
  obtain ⟨as', t', bs', ord, user, htr, hopens, hopen⟩ :=
    Settler.order_of_record (run_settler hrun h₀) h₀.settler hvm
  obtain ⟨as, t, bs, rfl, ht, rfl⟩ := Transition.exists_split_of_seen htr
  obtain ⟨m, hm, rfl⟩ := Option.map_eq_some_iff.mp ht
  rw [deliveredTotal_settled] at hopen
  exact ⟨as, t, bs, ord, user, rfl, Label.opens_of_settled hm hopens, hopen⟩

/-! ## The price -/

/-- A price with these seeds is submitted to the oracle. -/
def Label.Submits (k : Oracle.PriceKey) : Label → Prop
  | .protocol l => l.Submits k
  | _ => False

/-- The oracle accepts the price of the series: from its administrator or operator, after the expiry, near an
observation of the feed registered for the underlying. -/
def Accepts (t : Transition State Label) (info : OTokenInfo) : Prop :=
  ∃ l ctx config feed pyth reference, t.label = .protocol l ∧
    Protocol.Accepted ⟨t.pre.protocol, l, t.post.protocol⟩ info ctx config feed pyth reference

theorem Accepts.submits {t : Transition State Label} (h : Accepts t info) : t.label.Submits info.priceKey := by
  obtain ⟨l, ctx, _, _, _, _, hl, ha⟩ := h
  obtain rfl : l = .oracle (.setExpiryPrice ctx) := ha.label_eq
  rw [hl]
  exact ha.key_eq

/-- The oracle holds the price of the series. -/
def State.Holds (s : State) (info : OTokenInfo) : Prop :=
  s.oracle.expiryPrices.lookup info.priceKey = some ⟨info.underlying, info.expiry, info.expiryPrice, true⟩

/-- **A price the oracle comes to hold is one it accepts.** -/
theorem Step.accepts (h : Step D T A rent verifies s l s') (hnot : ¬s.Holds info) (hholds : s'.Holds info) :
    Accepts ⟨s, l, s'⟩ info := by
  cases h with
  | settler _ _ _ => exact absurd hholds hnot
  | lamports _ => exact absurd hholds hnot
  | protocol _ _ h =>
    obtain ⟨ctx, config, feed, pyth, reference, ha⟩ := h.accepted hnot hholds
    exact ⟨_, ctx, config, feed, pyth, reference, rfl, ha⟩

theorem Step.price_kept (hf : OtokenFactory.WellFormed A s.factory) (h : Step D T A rent verifies s l s')
    {key : Oracle.PriceKey} {ep : Oracle.ExpiryPrice} (hep : s.oracle.expiryPrices.lookup key = some ep) :
    s'.oracle.expiryPrices.lookup key = some ep := by
  cases h with
  | settler _ _ _ => exact hep
  | lamports _ => exact hep
  | protocol _ _ h => exact (h.later hf).price hep

/-- **A price is submitted once** in a run. -/
theorem submitted_once {as bs : List (Transition State Label)} {t : Transition State Label}
    (hrun : Run (Step D T A rent verifies) s₀ (as ++ t :: bs) s) (h₀ : Initial D s₀) {key : Oracle.PriceKey}
    (ht : t.label.Submits key) : ∀ u ∈ as ++ bs, ¬u.label.Submits key := by
  refine Run.once (I := fun s ↦ OtokenFactory.WellFormed A s.factory)
    (P := fun s ↦ ∃ ep, s.oracle.expiryPrices.lookup key = some ep) h₀.factory.wellFormed
    (fun _ _ _ hf hs ↦ hs.factory_wellFormed hf)
    (fun _ _ _ hf hs ⟨ep, hep⟩ ↦ ⟨ep, hs.price_kept hf hep⟩) ?_ hrun ht
  intro u l u' _ hs hl
  cases hs with
  | settler _ _ _ => exact absurd hl id
  | lamports _ => exact absurd hl id
  | protocol _ _ h => exact h.submits hl

/-- **A price held now and not yet due then** was accepted in between, and no other was submitted. -/
theorem accepted_after {as bs : List (Transition State Label)} {t : Transition State Label}
    (hrun : Run (Step D T A rent verifies) s₀ (as ++ t :: bs) s) (h₀ : Initial D s₀)
    (hearly : t.pre.settler.ctrl.clock < info.expiry) (hholds : s.Holds info) :
    ∃ cs u ds, bs = cs ++ u :: ds ∧ Accepts u info ∧
      ∀ v ∈ as ++ t :: (cs ++ ds), ¬v.label.Submits info.priceKey := by
  obtain ⟨hbefore, hstep, hafter⟩ := hrun.split
  obtain ⟨ptr, hprotocol⟩ := run_protocol hbefore h₀
  have hpriced := Protocol.priced_of_run hprotocol h₀.protocol
  have hpre : ¬t.pre.Holds info := fun h ↦ absurd (hpriced.oracle h).2.2 (not_le.mpr hearly)
  have hpost : ¬t.post.Holds info := by
    intro h
    obtain ⟨_, _, _, _, _, _, _, ha⟩ := hstep.accepts hpre h
    exact absurd ha.expired (not_le.mpr hearly)
  obtain ⟨cs, u, ds, rfl, hnot, hheld⟩ := hafter.exists_origin (P := fun s ↦ s.Holds info) hpost hholds
  have haccepts : Accepts u info := hafter.split.2.1.accepts hnot hheld
  refine ⟨cs, u, ds, rfl, haccepts, fun v hv ↦ ?_⟩
  have hcut : as ++ t :: (cs ++ u :: ds) = (as ++ t :: cs) ++ u :: ds := by simp
  rw [hcut] at hrun
  exact submitted_once hrun h₀ haccepts.submits v (by simpa using hv)

/-! ## The delivery -/

/-- The user's account gains what exercising `n` oTokens of the series owes. -/
def Pays (t : Transition State Label) (ctx : Settler.PhysicalRedeem) (info : OTokenInfo) (n : ℕ) : Prop :=
  ∃ a x owed, t.pre.settler.ctrl.ledger.accounts.lookup ctx.userContraAccount = some a ∧
    a.owner = ctx.user ∧ a.mint = Settler.expectedContra info ∧
    t.pre.settler.ctrl.ledger.mints.lookup (Settler.expectedContra info) = some x ∧
    Settler.computeContraAmount n info.strikePrice info.isPut x.decimals = .ok owed ∧
    t.pre.settler.ctrl.ledger.amount ctx.userContraAccount + owed ≤
      t.post.settler.ctrl.ledger.amount ctx.userContraAccount

theorem Step.physicalRedeem_effect {ctx : Settler.PhysicalRedeem} {n m : ℕ} {swap : Settler.Swap}
    (h : Step D T A rent verifies s (.settler (.physicalRedeem ctx n m swap)) s') :
    ∃ r, Settler.PhysicalRedeem.Effect D T s.settler ctx n m swap r s'.settler := by
  cases h with
  | settler _ _ h => exact Settler.physicalRedeem_effect h

theorem pays_of_effect (hT : T.Plain) {t : Transition State Label} {ctx : Settler.PhysicalRedeem} {n m : ℕ}
    {swap : Settler.Swap} {r : Settler.PhysicalRedeem.Course} (hr : Settler.Recorded D t.pre.settler)
    (he : Settler.PhysicalRedeem.Effect D T t.pre.settler ctx n m swap r t.post.settler) :
    Pays t ctx r.acc.info n := by
  obtain ⟨info, x, owed, hinfo, hcontra, hx, howed, hpaid⟩ := (he.delivered hT hr).paid
  obtain rfl : r.acc.info = info := Option.some.inj (he.loaded.info_eq.symm.trans hinfo)
  rw [hcontra] at hx
  exact ⟨r.userContra, x, owed, he.userContra_eq, he.userContra_owner, he.userContra_mint.trans hcontra, hx,
    howed, hpaid⟩

/-- **Every delivery has its story.** Whenever `n` oTokens of a maker are delivered out of a vault: the series
is whitelisted and on the terms the factory recorded; the vault was opened by an order under a quote
accepted in the name of that maker, by the user who is paid now, before the expiry; after the order, and after
the expiry, the oracle accepted the price of the series, the only one submitted for its underlying and expiry
so far; at that price the series is in the money, and the user's account gains what exercising `n` of it owes;
and all that has been delivered out of the vault, this included, is within the amount of the order. -/
theorem delivery_traced (hT : T.Plain) {as bs : List (Transition State Label)} {t : Transition State Label}
    (hrun : Run (Step D T A rent verifies) s₀ (as ++ t :: bs) s) (h₀ : Initial D s₀)
    {ctx : Settler.PhysicalRedeem} {n m : ℕ} {swap : Settler.Swap}
    (hl : t.label = .settler (.physicalRedeem ctx n m swap)) :
    ∃ cs u ds v es info ord, as = cs ++ u :: (ds ++ v :: es) ∧
      t.pre.settler.ctrl.otokenInfos.lookup ctx.otokenMint = some info ∧
      Protocol.Mirrors t.pre.protocol ctx.otokenMint info ∧
      u.label.Opens verifies ctx.vault ctx.makerOtokenBalance.maker ctx.user ctx.otokenMint ord ∧
      u.pre.settler.ctrl.clock < info.expiry ∧
      Accepts v info ∧ (∀ w ∈ cs ++ u :: (ds ++ es), ¬w.label.Submits info.priceKey) ∧
      Controller.IsItm info.strikePrice info.expiryPrice info.isPut ∧ Pays t ctx info n ∧
      n + Run.history (deliveredFrom ctx.vault) (ds ++ v :: es) ≤ ord.amount.toNat := by
  obtain ⟨hbefore, hstep, -⟩ := hrun.split
  rw [hl] at hstep
  obtain ⟨r, he⟩ := hstep.physicalRedeem_effect
  obtain ⟨ptr, hprotocol⟩ := run_protocol hbefore h₀
  have hrecorded := Settler.recorded_of_run (run_settler hbefore h₀) h₀.settler
  -- the order that wrote the record of the vault
  obtain ⟨cs, u, rest, ord, user, rfl, hopens, hopen⟩ := order_of_record hbefore h₀ he.vaultMM_eq
  obtain ⟨left, hleft, hwithin⟩ := hopen.record
  obtain ⟨v, hv, huser⟩ := hopen.vault
  obtain ⟨info, hinfo, hearly⟩ := hopen.series
  have hmaker : r.vaultMM.maker = ctx.makerOtokenBalance.maker := by
    rw [he.vaultMM_maker, he.key_eq]
  rw [he.vaultMM_otokenMint] at hopens hleft hinfo
  rw [hmaker] at hopens hleft
  obtain rfl : user = ctx.user := by
    obtain rfl := Option.some.inj (hv.symm.trans he.vault_eq)
    exact huser.symm.trans he.vault_beneficiary
  -- the series it is delivered in, and its price
  obtain ⟨_, _, _, _, _, _, hredeem⟩ := Controller.redeem_effect he.redeem
  have hread := he.loaded.info_eq_of_seed hredeem.info_seed
  obtain rfl : r.acc.info = info := Option.some.inj (hread.symm.trans hinfo)
  have hholds : t.pre.Holds r.acc.info :=
    (Protocol.priced_of_run hprotocol h₀.protocol).copied hinfo he.priced.ne'
  obtain ⟨ds, w, es, rfl, haccepts, honly⟩ := accepted_after hbefore h₀ hearly hholds
  refine ⟨cs, u, ds, w, es, r.acc.info, ord, rfl, hinfo,
    Protocol.mirrored_of_run hprotocol h₀.protocol _ _ hinfo, hopens, hearly, haccepts, honly, he.itm,
    pays_of_effect hT hrecorded he, ?_⟩
  have hremaining : r.vaultMM.remainingAmount = left := by
    rw [he.vaultMM_eq, Option.some.injEq] at hleft
    rw [hleft]
  have hcovered := he.remaining
  omega

section Sample

open Settler (otherKey)

/-- The user sells into the maker's quote. -/
def sampleSale : Action := .settler (.executeOrder (Settler.sampleExecuteOrder 0) Settler.sampleOrder
  Settler.sampleTransaction 1)

/-- The price of the series is submitted, and the controller copies it. -/
def samplePricing : List Action :=
  Oracle.sampleInstructions.map (fun ix ↦ .protocol (.oracle ix)) ++
    [.protocol (.tick 130), .protocol (.oracle (.setExpiryPrice (Oracle.sampleSetExpiryPrice 130))),
     .protocol (.controller (.setExpiryPrice ⟨20, ⟨10, 100, 700000000, true⟩, 1⟩))]

/-- Accounts `33`, `43` and `19` are the seller's, the settler's and the maker's for asset `15`, and
`18` is the market's for the collateral. -/
def sampleExercised : List Action := sampleSetup ++ sampleSale :: samplePricing ++
  [.protocol (.openAccount 33 15 1), .protocol (.openAccount 43 15 4),
   .protocol (.openAccount 19 15 otherKey), .protocol (.openAccount 18 10 9)]

/-- The whole order is delivered, through the mock. -/
def sampleDeliver : Action := .settler (.physicalRedeem Settler.samplePhysicalRedeem 1000000 10000
  (Settler.mockRoute sampleDeployment splToken 9 (Settler.sampleSplit 0)))

theorem sampleDeliver_run :
    Run (Step sampleDeployment splToken Protocol.sampleAddresses id Settler.sampleScheme) sampleState
    (sampleTrace sampleExercised ++ [⟨sampleRun sampleExercised, sampleDeliver.label,
      sampleRun (sampleExercised ++ [sampleDeliver])⟩]) (sampleRun (sampleExercised ++ [sampleDeliver])) := by
  have hnext : sampleDeliver.next sampleDeployment splToken Protocol.sampleAddresses id
      (sampleRun sampleExercised) = some (sampleRun (sampleExercised ++ [sampleDeliver])) :=
    Run.next_of_playable _ (by decide +kernel)
  have hmock : ¬sampleDeployment.IsControllerPda 9 :=
    sampleDeployment_not_isControllerPda (by decide) (by decide)
  have hallowed : sampleDeliver.Allowed sampleDeployment splToken Protocol.sampleAddresses
      Settler.sampleScheme := by
    refine ⟨fun k hk ↦ ?_, fun _ ↦ routed_of_through (Settler.mockRoute_through hmock)⟩
    obtain rfl := List.mem_singleton.mp hk
    exact Settler.sampleDeployment_not_isPda (by decide) (by decide) (by decide)
  exact (sampleRun_run (by decide +kernel) (by decide +kernel)).snoc (Action.step hallowed hnext)

/-- The series in account `20`, with its price. -/
def sampleInfo : OTokenInfo := ⟨20, 10, 15, 10, 500000000, 100, false, 6, 700000000⟩

/-- The seller is paid for the order under the maker's quote, at the only price submitted. -/
theorem delivery_traced_sample : ∃ cs u ds v es ord, sampleTrace sampleExercised = cs ++ u :: (ds ++ v :: es) ∧
    u.label.Opens Settler.sampleScheme ⟨4, 0⟩ otherKey 1 20 ord ∧ v.label.Submits ⟨10, 100⟩ ∧
    (∀ w ∈ cs ++ u :: (ds ++ es), ¬w.label.Submits ⟨10, 100⟩) ∧
    Pays ⟨sampleRun sampleExercised, sampleDeliver.label, sampleRun (sampleExercised ++ [sampleDeliver])⟩
      Settler.samplePhysicalRedeem sampleInfo 1000000 ∧
    1000000 + Run.history (deliveredFrom ⟨4, 0⟩) (ds ++ v :: es) ≤ ord.amount.toNat := by
  have hlabel : (Transition.mk (sampleRun sampleExercised) sampleDeliver.label
      (sampleRun (sampleExercised ++ [sampleDeliver]))).label = .settler (.physicalRedeem
        Settler.samplePhysicalRedeem 1000000 10000
        (Settler.mockRoute sampleDeployment splToken 9 (Settler.sampleSplit 0))) := rfl
  obtain ⟨cs, u, ds, v, es, info, ord, htr, hinfo, -, hopens, -, haccepts, honly, -, hpays, hwithin⟩ :=
    delivery_traced splToken_plain sampleDeliver_run sampleState_initial hlabel
  obtain rfl : sampleInfo = info := by
    have hread : (sampleRun sampleExercised).settler.ctrl.otokenInfos.lookup
        Settler.samplePhysicalRedeem.otokenMint = some sampleInfo := by decide +kernel
    dsimp only at hinfo
    rw [hread] at hinfo
    exact Option.some.inj hinfo
  exact ⟨cs, u, ds, v, es, ord, htr, hopens, haccepts.submits, honly, hpays, hwithin⟩

end Sample

end Platform

end OptionsProtocol
