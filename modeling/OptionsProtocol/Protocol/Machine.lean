import OptionsProtocol.Controller.Invariants
import OptionsProtocol.Oracle.Expiry
import OptionsProtocol.Registry.Whitelist

/-!
# The four programs together

The oracle, the factory, the whitelist and the controller share a clock and a ledger. They never call one
another: the controller and the whitelist read the accounts of the others, at addresses their seeds
determine. A run of the protocol interleaves the instructions of all four in any order.

Seen from the controller, each step is one of its own or leaves it as it was. All that has been proved of
its moves therefore holds here, and what is new concerns only the accounts it copies from.
-/

namespace OptionsProtocol

/-- The seeds of the settlement price of the series. -/
def Controller.OTokenInfo.priceKey (info : Controller.OTokenInfo) : Oracle.PriceKey :=
  ⟨info.underlying, info.expiry⟩

/-- The terms of the series. -/
def Controller.OTokenInfo.terms (info : Controller.OTokenInfo) : OtokenFactory.Terms :=
  ⟨info.underlying, info.strikeAsset, info.collateralMint, info.strikePrice, info.expiry, info.isPut⟩

theorem Controller.OTokenInfo.Later.priceKey_eq {info info' : Controller.OTokenInfo}
    (h : info.Later info') : info'.priceKey = info.priceKey := by
  rcases h with rfl | ⟨-, p, -, rfl⟩
  · rfl
  · rfl

namespace Protocol

open OtokenFactory (SeriesAddresses)

structure State where
  /-- With the clock and the ledger. -/
  controller : Controller.State
  oracle : Oracle.State
  factory : OtokenFactory.State
  whitelist : Whitelist.State

inductive Label where
  | controller (ix : Controller.Instruction)
  | oracle (ix : Oracle.Instruction)
  | factory (ix : OtokenFactory.Instruction)
  | whitelist (ix : Whitelist.Instruction)
  | token
  | tick

/-- The accounts of other programs passed to the controller are what lies at the addresses it checks. -/
def State.Reads (s : State) : Controller.Instruction → Prop
  | .createOtokenInfo ctx =>
    s.factory.otokens.lookup ctx.factoryOtoken.terms = some ctx.factoryOtoken ∧
      s.whitelist.entries.lookup ctx.otokenMint = some ctx.whitelistedOtoken ∧
      ctx.factoryOperator = s.factory.operatorConfig.map OtokenFactory.FactoryOperatorConfig.operator
  | .setExpiryPrice ctx => ∀ info ∈ s.controller.otokenInfos.lookup ctx.otokenInfo,
    s.oracle.expiryPrices.lookup info.priceKey = some ctx.oracleExpiryPrice
  | _ => True

/-- The accounts passed to the whitelist are the factory's. It does not check where an oToken lies. -/
def State.Shows (s : State) : Whitelist.Instruction → Prop
  | .whitelistOtoken ctx =>
    (∃ terms, s.factory.otokens.lookup terms = some ctx.factoryOtoken) ∧
      ctx.factoryOperator = s.factory.operatorConfig.map OtokenFactory.FactoryOperatorConfig.operator
  | _ => True

/-- One step. -/
inductive Step (D : Deployment) (T : TokenProgram) (A : SeriesAddresses D) :
    State → Label → State → Prop
  | controller {s : State} {ix : Controller.Instruction} {c : Controller.State}
      (hsigner : ¬D.IsControllerPda ix.signer) (hreads : s.Reads ix)
      (h : Controller.exec D T ix s.controller = .ok c) :
      Step D T A s (.controller ix) { s with controller := c }
  | oracle {s : State} {ix : Oracle.Instruction} {o : Oracle.State}
      (h : Oracle.exec s.controller.clock ix s.oracle = .ok o) :
      Step D T A s (.oracle ix) { s with oracle := o }
  | factory {s : State} {ix : OtokenFactory.Instruction} {f : OtokenFactory.State} {L : Ledger}
      (h : OtokenFactory.exec A s.controller.clock s.controller.ledger ix s.factory = .ok (f, L)) :
      Step D T A s (.factory ix) { s with
        factory := f
        controller := { s.controller with ledger := L } }
  | whitelist {s : State} {ix : Whitelist.Instruction} {w : Whitelist.State} (hshows : s.Shows ix)
      (h : Whitelist.exec ix s.whitelist = .ok w) :
      Step D T A s (.whitelist ix) { s with whitelist := w }
  | token {s : State} {L : Ledger}
      (h : s.controller.ledger.Rely D.IsControllerPda D.IsOtokenMint L) :
      Step D T A s .token { s with controller := { s.controller with ledger := L } }
  | tick {s : State} {t : ℤ} (h : s.controller.clock ≤ t) :
      Step D T A s .tick { s with controller := { s.controller with clock := t } }

/-- None of the four programs has an account. -/
structure Initial (D : Deployment) (s : State) : Prop where
  controller : Controller.Initial D s.controller
  oracle : s.oracle = ⟨none, ∅, ∅⟩
  factory : OtokenFactory.Initial s.factory
  whitelist : s.whitelist = ⟨none, ∅⟩

variable {D : Deployment} {T : TokenProgram} {A : SeriesAddresses D} {s s' s₀ : State} {l : Label}
  {tr : List (Transition State Label)}

/-! ## The controller's view -/

/-- What the controller makes of a step. -/
def Label.seen (A : SeriesAddresses D) : Label → Option Controller.Label
  | .controller ix => some (.call ix)
  | .factory (.createOtoken ctx) =>
    some (.createOtoken (A.otokenMint ctx.terms) ctx.controllerAuthority)
  | .factory _ | .oracle _ | .whitelist _ => none
  | .token => some .token
  | .tick => some .tick

theorem Label.eq_of_seen {ix : Controller.Instruction} (h : l.seen A = some (.call ix)) :
    l = .controller ix := by
  cases l with
  | controller ix' =>
    rw [seen, Option.some.injEq, Controller.Label.call.injEq] at h
    rw [h]
  | factory ix' => cases ix' <;> simp [seen] at h
  | _ => simp [seen] at h

theorem Label.eq_token_of_seen (h : l.seen A = some .token) : l = .token := by
  cases l with
  | token => rfl
  | factory ix => cases ix <;> simp [seen] at h
  | _ => simp [seen] at h

theorem Step.factory_wellFormed (hf : OtokenFactory.WellFormed A s.factory) (h : Step D T A s l s') :
    OtokenFactory.WellFormed A s'.factory := by
  cases h with
  | factory h => exact hf.exec h
  | _ => exact hf

theorem factory_wellFormed (hrun : Run (Step D T A) s₀ tr s) (h₀ : Initial D s₀) :
    OtokenFactory.WellFormed A s.factory :=
  Run.invariant (I := fun s ↦ OtokenFactory.WellFormed A s.factory) h₀.factory.wellFormed
    (fun _ _ _ hf hs ↦ hs.factory_wellFormed hf) hrun

theorem State.Reads.genuine (hf : OtokenFactory.WellFormed A s.factory) {ix : Controller.Instruction}
    (h : s.Reads ix) : ix.Genuine D := by
  cases ix with
  | createOtokenInfo ctx =>
    obtain ⟨-, hmint⟩ := hf.otoken h.1
    constructor
    · rw [hmint]
      exact A.isOtokenMint _
    · rw [hmint]
      exact A.ne_collateral ctx.factoryOtoken.terms
  | _ => trivial

/-- **A step of the protocol is a step of the controller**, or leaves it as it was. -/
theorem Step.seen (hf : OtokenFactory.WellFormed A s.factory) (h : Step D T A s l s') :
    (l.seen A).elim (s'.controller = s.controller)
      fun m ↦ Controller.Step D T s.controller m s'.controller := by
  cases h with
  | controller hsigner hreads h => exact .call hsigner (hreads.genuine hf) h
  | oracle _ => rfl
  | whitelist _ _ => rfl
  | token h => exact .token h
  | tick h => exact .tick h
  | @factory ix f L h =>
    rcases OtokenFactory.cases_of_exec h with ⟨hne, hadmin⟩ | ⟨ctx, config, rfl, he⟩
    · have hledger := hadmin.ledger_eq
      subst hledger
      cases ix with
      | createOtoken ctx => exact absurd rfl (hne ctx)
      | _ => rfl
    · have hledger := he.ledger_eq
      subst hledger
      exact .createOtoken (A.isOtokenMint _) he.fresh_mint

/-- What relates the two sides of every move of the controller relates the two sides of every step. -/
theorem Step.lift {R : Controller.State → Controller.State → Prop} (hrefl : ∀ c, R c c)
    (hmove : ∀ c m c', Controller.Move D T c m c' → R c c')
    (hf : OtokenFactory.WellFormed A s.factory) (h : Step D T A s l s') :
    R s.controller s'.controller := by
  have hseen := h.seen hf
  cases hl : l.seen A with
  | none =>
    rw [hl, Option.elim_none] at hseen
    rw [hseen]
    exact hrefl _
  | some m =>
    rw [hl, Option.elim_some] at hseen
    exact hmove _ _ _ hseen.move

theorem controller_invariant {I : Controller.State → Prop} (h₀ : Initial D s₀) (hI₀ : I s₀.controller)
    (hmove : ∀ c m c', I c → Controller.Move D T c m c' → I c') (hrun : Run (Step D T A) s₀ tr s) :
    I s.controller := by
  have hboth : OtokenFactory.WellFormed A s.factory ∧ I s.controller := by
    refine Run.invariant (I := fun s ↦ OtokenFactory.WellFormed A s.factory ∧ I s.controller)
      ⟨h₀.factory.wellFormed, hI₀⟩ ?_ hrun
    intro u m u' hu hs
    refine ⟨hs.factory_wellFormed hu.1, ?_⟩
    exact hs.lift (R := fun c c' ↦ I c → I c') (fun _ ↦ id)
      (fun c m c' hmv hc ↦ hmove c m c' hc hmv) hu.1 hu.2
  exact hboth.2

theorem controller_wellFormed (hrun : Run (Step D T A) s₀ tr s) (h₀ : Initial D s₀) :
    Controller.WellFormed D s.controller :=
  controller_invariant h₀ h₀.controller.wellFormed (fun _ _ _ hw hm ↦ hm.wellFormed hw) hrun

/-! ## What persists -/

/-- Time passes, and a series keeps all but its price, which is set once. -/
structure State.Later (s s' : State) : Prop where
  clock : s.controller.clock ≤ s'.controller.clock
  info : ∀ {o info}, s.controller.otokenInfos.lookup o = some info →
    ∃ info', s'.controller.otokenInfos.lookup o = some info' ∧ info.Later info'
  price : ∀ {k ep}, s.oracle.expiryPrices.lookup k = some ep →
    s'.oracle.expiryPrices.lookup k = some ep
  otoken : ∀ {terms otoken}, s.factory.otokens.lookup terms = some otoken →
    s'.factory.otokens.lookup terms = some otoken
  entry : ∀ {m entry}, s.whitelist.entries.lookup m = some entry →
    s'.whitelist.entries.lookup m = some entry

theorem State.Later.refl (s : State) : s.Later s where
  clock := le_rfl
  info hi := ⟨_, hi, .refl _⟩
  price := id
  otoken := id
  entry := id

theorem State.Later.trans {s'' : State} (h : s.Later s') (h' : s'.Later s'') : s.Later s'' where
  clock := h.clock.trans h'.clock
  info hi := by
    obtain ⟨info', hi', hlater⟩ := h.info hi
    obtain ⟨info'', hi'', hlater'⟩ := h'.info hi'
    exact ⟨info'', hi'', hlater.trans hlater'⟩
  price hp := h'.price (h.price hp)
  otoken ho := h'.otoken (h.otoken ho)
  entry he := h'.entry (h.entry he)

/-- **What a step keeps.** -/
theorem Step.later (hf : OtokenFactory.WellFormed A s.factory) (h : Step D T A s l s') :
    s.Later s' := by
  have hclock := h.lift (R := fun c c' ↦ c.clock ≤ c'.clock) (fun _ ↦ le_rfl)
    (fun _ _ _ hm ↦ hm.clock_le) hf
  have hinfo := h.lift (R := fun c c' ↦ ∀ o info, c.otokenInfos.lookup o = some info →
    ∃ info', c'.otokenInfos.lookup o = some info' ∧ info.Later info')
    (fun _ _ _ hi ↦ ⟨_, hi, .refl _⟩) (fun _ _ _ hm _ _ hi ↦ hm.info_later hi) hf
  refine ⟨hclock, fun hi ↦ hinfo _ _ hi, ?_, ?_, ?_⟩
  · intro k ep hep
    cases h with
    | oracle h => exact Oracle.expiryPrice_of_exec h hep
    | _ => exact hep
  · intro terms otoken ho
    cases h with
    | factory h => exact OtokenFactory.otoken_of_exec h ho
    | _ => exact ho
  · intro m entry he
    cases h with
    | whitelist _ h => exact Whitelist.entry_of_exec h he
    | _ => exact he

/-- Along a run from a state where the factory keeps its invariant, everything is later. -/
theorem later_of_run (hrun : Run (Step D T A) s tr s') (hf : OtokenFactory.WellFormed A s.factory) :
    s.Later s' := by
  have hboth : OtokenFactory.WellFormed A s'.factory ∧ s.Later s' := by
    refine Run.invariant (I := fun u ↦ OtokenFactory.WellFormed A u.factory ∧ s.Later u)
      ⟨hf, .refl s⟩ ?_ hrun
    intro u m u' hu hs
    exact ⟨hs.factory_wellFormed hu.1, hu.2.trans (hs.later hu.1)⟩
  exact hboth.2

/-! ## Scripts -/

instance (s : State) (ix : Controller.Instruction) : Decidable (s.Reads ix) := by
  cases ix <;> unfold State.Reads <;> infer_instance

instance (s : State) (ix : Whitelist.Instruction) : Decidable (s.Shows ix) :=
  match ix with
  | .whitelistOtoken ctx =>
    have hmem : (∃ e ∈ s.factory.otokens.entries, e.2 = ctx.factoryOtoken) ↔
        ∃ terms, s.factory.otokens.lookup terms = some ctx.factoryOtoken := by
      constructor
      · rintro ⟨e, he, heq⟩
        exact ⟨e.1, heq ▸ Store.mem_entries_iff.mp he⟩
      · rintro ⟨terms, ht⟩
        exact ⟨⟨terms, ctx.factoryOtoken⟩, Store.mem_entries_iff.mpr ht, rfl⟩
    haveI := Multiset.decidableExistsMultiset (p := fun e ↦ e.2 = ctx.factoryOtoken)
      (m := s.factory.otokens.entries)
    haveI := decidable_of_iff _ hmem
    inferInstanceAs (Decidable (_ ∧ _))
  | .initializeConfig _ | .setFactory _ _ => isTrue trivial

/-- Actions that concrete runs are made of. -/
inductive Action where
  | controller (ix : Controller.Instruction)
  | oracle (ix : Oracle.Instruction)
  | factory (ix : OtokenFactory.Instruction)
  | whitelist (ix : Whitelist.Instruction)
  | openAccount (k mint owner : Pubkey)
  | tick (t : ℤ)

def Action.label : Action → Label
  | .controller ix => .controller ix
  | .oracle ix => .oracle ix
  | .factory ix => .factory ix
  | .whitelist ix => .whitelist ix
  | .openAccount .. => .token
  | .tick _ => .tick

/-- Carry out an action. -/
def Action.next (D : Deployment) (T : TokenProgram) (A : SeriesAddresses D) :
    Action → State → Option State
  | .controller ix, s =>
    if s.Reads ix then
      (Controller.exec D T ix s.controller).toOption.map fun c ↦ { s with controller := c }
    else none
  | .oracle ix, s =>
    (Oracle.exec s.controller.clock ix s.oracle).toOption.map fun o ↦ { s with oracle := o }
  | .factory ix, s =>
    (OtokenFactory.exec A s.controller.clock s.controller.ledger ix s.factory).toOption.map fun r ↦
      { s with factory := r.1, controller := { s.controller with ledger := r.2 } }
  | .whitelist ix, s =>
    if s.Shows ix then (Whitelist.exec ix s.whitelist).toOption.map fun w ↦ { s with whitelist := w }
    else none
  | .openAccount k mint owner, s =>
    if s.controller.ledger.accounts.lookup k = none then
      some { s with controller := { s.controller with ledger := { s.controller.ledger with
        accounts := s.controller.ledger.accounts.insert k ⟨mint, owner, 0, none, 0⟩ } } }
    else none
  | .tick t, s =>
    if s.controller.clock ≤ t then some { s with controller := { s.controller with clock := t } }
    else none

/-- The controller did not sign it itself. -/
def Action.Allowed (D : Deployment) : Action → Prop
  | .controller ix => ¬D.IsControllerPda ix.signer
  | _ => True

theorem Action.step {a : Action} (ha : a.Allowed D) (h : a.next D T A s = some s') :
    Step D T A s a.label s' := by
  cases a with
  | controller ix =>
    obtain ⟨hreads, hmap⟩ := Option.ite_none_right_eq_some.mp h
    obtain ⟨c, hc, rfl⟩ := Option.map_eq_some_iff.mp hmap
    exact .controller ha hreads (Except.toOption_eq_some.mp hc)
  | oracle ix =>
    obtain ⟨o, ho, rfl⟩ := Option.map_eq_some_iff.mp h
    exact .oracle (Except.toOption_eq_some.mp ho)
  | factory ix =>
    obtain ⟨⟨f, L⟩, hr, rfl⟩ := Option.map_eq_some_iff.mp h
    exact .factory (Except.toOption_eq_some.mp hr)
  | whitelist ix =>
    obtain ⟨hshows, hmap⟩ := Option.ite_none_right_eq_some.mp h
    obtain ⟨w, hw, rfl⟩ := Option.map_eq_some_iff.mp hmap
    exact .whitelist hshows (Except.toOption_eq_some.mp hw)
  | openAccount k mint owner =>
    obtain ⟨hk, hs⟩ := Option.ite_none_right_eq_some.mp h
    obtain rfl := Option.some.inj hs
    exact .token (Ledger.Rely.open mint owner hk)
  | tick t =>
    obtain ⟨ht, hs⟩ := Option.ite_none_right_eq_some.mp h
    obtain rfl := Option.some.inj hs
    exact .tick ht

section Sample

/-- The mint of every series is at `20`, except for those on that asset. -/
def sampleAddresses : SeriesAddresses sampleDeployment where
  otokenMint terms := if terms.collateral = 20 then 21 else 20
  isOtokenMint terms := by
    split
    · exact ⟨by decide, by decide⟩
    · exact ⟨by decide, by decide⟩
  ne_collateral terms := by
    split
    · rename_i h
      rw [h]
      decide
    · rename_i h
      exact h

def sampleState : State where
  controller := Controller.sampleState
  oracle := ⟨none, ∅, ∅⟩
  factory := ⟨none, none, ∅⟩
  whitelist := ⟨none, ∅⟩

theorem sampleState_initial : Initial sampleDeployment sampleState where
  controller := Controller.sampleState_initial
  oracle := rfl
  factory := ⟨rfl, rfl, rfl⟩
  whitelist := rfl

/-- User `1` administers the four programs; a covered-call series on the asset `10` is created,
whitelisted and registered. -/
def sampleSetup : List Action :=
  [.controller (.initializeConfig 1 1), .factory (.initializeConfig 1),
   .factory (.setController 1 sampleDeployment.controllerConfig), .factory (.setOperator 1 1),
   .whitelist (.initializeConfig 1),
   .factory (.createOtoken ⟨10, 15, 10, 5, 100, false, sampleDeployment.controllerConfig, 1⟩),
   .whitelist (.whitelistOtoken ⟨20, ⟨10, 15, 10, 5, 100, false, 20⟩, some 1, 1⟩),
   .controller (.createOtokenInfo ⟨20, ⟨10, 15, 10, 5, 100, false, 20⟩, 10, ⟨20, true⟩, some 1, 1⟩)]

/-- Oracle prices, and the controller copies the price. -/
def samplePricing : List Action :=
  Oracle.sampleInstructions.map .oracle ++
    [.tick 130, .oracle (.setExpiryPrice (Oracle.sampleSetExpiryPrice 130)),
     .controller (.setExpiryPrice ⟨20, ⟨10, 100, 700000000, true⟩, 1⟩)]

/-- The state a script leads to from the sample state. -/
def sampleRun (as : List Action) : State :=
  Run.playState (Action.next sampleDeployment splToken sampleAddresses) sampleState as

/-- The transitions of that script. -/
def sampleTrace (as : List Action) : List (Transition State Label) :=
  Run.playTrace (Action.next sampleDeployment splToken sampleAddresses) Action.label sampleState as

/-- The controller is called by user `1`. -/
def Action.bySampleUser : Action → Bool
  | .controller ix => decide (ix.signer = 1)
  | _ => true

theorem Action.allowed_of_bySampleUser {a : Action} (h : a.bySampleUser = true) :
    a.Allowed sampleDeployment := by
  cases a with
  | controller ix =>
    have hsigner : ix.signer = 1 := of_decide_eq_true h
    rw [Allowed, hsigner]
    exact sampleDeployment_not_isControllerPda (by decide) (by decide)
  | _ => trivial

theorem run_of_bySampleUser {s : State} {as : List Action} (ha : as.all Action.bySampleUser = true)
    (hplay : Run.playable (Action.next sampleDeployment splToken sampleAddresses) s as = true) :
    Run (Step sampleDeployment splToken sampleAddresses) s
      (Run.playTrace (Action.next sampleDeployment splToken sampleAddresses) Action.label s as)
      (Run.playState (Action.next sampleDeployment splToken sampleAddresses) s as) :=
  Run.of_script _ _ (fun a h _ _ hn ↦ Action.step
    (Action.allowed_of_bySampleUser (List.all_eq_true.mp ha a h)) hn) hplay

theorem sampleRun_run {as : List Action} (ha : as.all Action.bySampleUser = true)
    (hplay : Run.playable (Action.next sampleDeployment splToken sampleAddresses) sampleState as = true) :
    Run (Step sampleDeployment splToken sampleAddresses) sampleState (sampleTrace as) (sampleRun as) :=
  run_of_bySampleUser ha hplay

end Sample

end Protocol

end OptionsProtocol
