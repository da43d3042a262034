import OptionsProtocol.Protocol.Provenance
import OptionsProtocol.Settler.Origins

/-!
# The whole platform

The settler trades through the controller, and the controller's series and prices come from the factory, the
whitelist and the oracle. Here all five run on one ledger and under one clock, with everybody's instructions
in any order.

What was proved of the settler next to the controller, and of the controller next to the other three, is
proved of parts of this system. A run of the whole is a run of each part: transition by transition for the
settler and the controller, since what the other three do they do elsewhere; and for the four programs
without the settler by taking the settler's instructions apart into the calls and transfers they consist of.
-/

namespace OptionsProtocol

open OtokenFactory (SeriesAddresses)

/-- The controller or the token program is used. -/
def Protocol.Label.Trades : Protocol.Label → Prop
  | .controller _ | .token => True
  | _ => False

/-- Next to the programs `p`, the swap acts through the controller and the token program, and shows the
controller their accounts as they are. -/
def Settler.Swap.Routed (D : Deployment) (T : TokenProgram) (A : SeriesAddresses D) (p : Protocol.State)
    (swap : Settler.Swap) : Prop :=
  ∀ c c', c.ledger.Undelegated D.IsControllerPda → swap c = .ok c' →
    ∃ tr, Run (Protocol.Step D T A) { p with controller := c } tr { p with controller := c' } ∧
      ∀ t ∈ tr, t.label.Trades

namespace Platform

structure State where
  /-- With the controller, the clock and the ledger. -/
  settler : Settler.State
  oracle : Oracle.State
  factory : OtokenFactory.State
  whitelist : Whitelist.State

/-- The four programs without the settler. -/
def State.protocol (s : State) : Protocol.State := ⟨s.settler.ctrl, s.oracle, s.factory, s.whitelist⟩

inductive Label where
  | settler (ix : Settler.Instruction)
  /-- Somebody else's use of one of the other programs, or the passing of time. -/
  | protocol (l : Protocol.Label)
  | lamports

/-- What is known of the transaction an instruction is part of. -/
def Admissible (D : Deployment) (T : TokenProgram) (A : SeriesAddresses D)
    (verifies : Ed25519.Signed → Bool) (p : Protocol.State) : Settler.Instruction → Prop
  | .executeOrder _ _ tx _ => Ed25519.Succeeded verifies tx
  | .physicalRedeem _ _ _ swap => swap.Routed D T A p
  | _ => True

/-- One step. -/
inductive Step (D : Deployment) (T : TokenProgram) (A : SeriesAddresses D) (rent : ℕ → ℕ)
    (verifies : Ed25519.Signed → Bool) : State → Label → State → Prop
  | settler {s : State} {ix : Settler.Instruction} {s₁ : Settler.State}
      (hsigners : ∀ k ∈ ix.signers, ¬D.IsPda k) (hix : Admissible D T A verifies s.protocol ix)
      (h : Settler.exec D T rent ix s.settler = .ok s₁) :
      Step D T A rent verifies s (.settler ix) { s with settler := s₁ }
  | protocol {s : State} {l : Protocol.Label} {p : Protocol.State}
      (hsigner : ∀ ix, l = .controller ix → ¬D.IsPda ix.signer)
      (htoken : l = .token → s.settler.ctrl.ledger.Rely D.IsPda D.IsOtokenMint p.controller.ledger)
      (h : Protocol.Step D T A s.protocol l p) :
      Step D T A rent verifies s (.protocol l)
        ⟨{ s.settler with ctrl := p.controller }, p.oracle, p.factory, p.whitelist⟩
  | lamports {s : State} {system : SystemAccounts Settler.Address}
      (h : s.settler.system.Rely Settler.Address.IsSettlers system) :
      Step D T A rent verifies s .lamports { s with settler := { s.settler with system } }

/-- The settler is deployed next to new programs. -/
structure Initial (D : Deployment) (s : State) : Prop where
  settler : Settler.Initial D s.settler
  oracle : s.oracle = ⟨none, ∅, ∅⟩
  factory : OtokenFactory.Initial s.factory
  whitelist : s.whitelist = ⟨none, ∅⟩

variable {D : Deployment} {T : TokenProgram} {A : SeriesAddresses D} {rent : ℕ → ℕ}
  {verifies : Ed25519.Signed → Bool} {s s' s₀ : State} {l : Label} {tr : List (Transition State Label)}

theorem Initial.protocol (h : Initial D s) : Protocol.Initial D s.protocol :=
  ⟨h.settler.ctrl, h.oracle, h.factory, h.whitelist⟩

theorem Step.factory_wellFormed (hf : OtokenFactory.WellFormed A s.factory)
    (h : Step D T A rent verifies s l s') : OtokenFactory.WellFormed A s'.factory := by
  cases h with
  | settler _ _ _ => exact hf
  | protocol _ _ h => exact h.factory_wellFormed hf
  | lamports _ => exact hf

/-! ## The controller's part -/

section Controller

variable {p p' : Protocol.State} {ptr : List (Transition Protocol.State Protocol.Label)}

theorem run_controller (hf : OtokenFactory.WellFormed A p.factory) (hrun : Run (Protocol.Step D T A) p ptr p') :
    Run (Controller.Step D T) p.controller
      (ptr.filterMap (Transition.seen Protocol.State.controller (Protocol.Label.seen A))) p'.controller :=
  Run.project (I := fun p ↦ OtokenFactory.WellFormed A p.factory) hf
    (fun _ _ _ hf hs ↦ hs.factory_wellFormed hf) (fun _ _ _ hf hs ↦ hs.seen hf) hrun

theorem undelegated_of_run (hf : OtokenFactory.WellFormed A p.factory)
    (hu : p.controller.ledger.Undelegated D.IsControllerPda) (hrun : Run (Protocol.Step D T A) p ptr p') :
    p'.controller.ledger.Undelegated D.IsControllerPda :=
  Settler.undelegated_of_run hu (run_controller hf hrun)

/-- **A routed swap is an ordinary one.** -/
theorem ordinary_of_routed {swap : Settler.Swap} (hf : OtokenFactory.WellFormed A p.factory)
    (h : swap.Routed D T A p) : swap.Ordinary D T := by
  intro c c' hu hc
  obtain ⟨ptr, hrun, htrades⟩ := h c c' hu hc
  refine ⟨_, run_controller (p := { p with controller := c }) hf hrun, fun t ht ↦ ?_⟩
  obtain ⟨u, hu, hseen⟩ := List.mem_filterMap.mp ht
  obtain ⟨m, hm, rfl⟩ := Option.map_eq_some_iff.mp hseen
  have hlabel := htrades u hu
  rintro rfl
  -- what trades and is seen is a call or a transfer
  cases hl : u.label with
  | controller ix => simp [hl, Protocol.Label.seen] at hm
  | token => simp [hl, Protocol.Label.seen] at hm
  | _ =>
    rw [hl] at hlabel
    exact absurd hlabel id

/-- A swap that only transfers is routed. -/
theorem routed_of_through {swap : Settler.Swap} (h : swap.Through D T (· = .token)) :
    swap.Routed D T A p := by
  intro c c' hu hc
  obtain ⟨tr, hrun, htoken⟩ := h c c' hu hc
  refine Run.simulate (p := fun c ↦ { p with controller := c }) (J := fun _ ↦ True)
    (P := fun t ↦ t.label = .token) (Q := fun t : Transition Protocol.State Protocol.Label ↦ t.label.Trades)
    trivial (fun _ _ _ _ _ ↦ trivial) ?_ hrun htoken
  rintro c l c' - hs rfl
  cases hs with
  | token h => exact ⟨_, .single (.token h), by simp [Protocol.Label.Trades]⟩

end Controller

/-! ## The settler's part -/

/-- What the settler next to the controller makes of a step. -/
def Label.settled (A : SeriesAddresses D) : Label → Option Settler.Label
  | .settler ix => some (.call ix)
  | .protocol l => (l.seen A).map .controller
  | .lamports => some .lamports

/-- **A step of the platform is one of the settler and the controller**, or leaves both as they were. -/
theorem Step.settled (hf : OtokenFactory.WellFormed A s.factory) (h : Step D T A rent verifies s l s') :
    (l.settled A).elim (s'.settler = s.settler)
      fun m ↦ Settler.Step D T rent verifies s.settler m s'.settler := by
  cases h with
  | lamports h => exact .lamports h
  | @settler ix s₁ hsigners hix h =>
    refine .call hsigners ?_ h
    cases ix with
    | executeOrder ctx ord tx i => exact hix
    | physicalRedeem ctx n m swap => exact ordinary_of_routed hf hix
    | _ => trivial
  | @protocol l p hsigner htoken h =>
    have hseen := h.seen hf
    cases hl : l.seen A with
    | none =>
      rw [hl, Option.elim_none] at hseen
      rw [Label.settled, hl, Option.map_none, Option.elim_none, hseen]
      rfl
    | some m =>
      rw [hl, Option.elim_some] at hseen
      rw [Label.settled, hl, Option.map_some, Option.elim_some]
      refine .controller (fun ix hix ↦ hsigner ix ?_) (fun hm ↦ htoken ?_) hseen
      · exact Protocol.Label.eq_of_seen (hix ▸ hl)
      · exact Protocol.Label.eq_token_of_seen (hm ▸ hl)

theorem factory_wellFormed (hrun : Run (Step D T A rent verifies) s₀ tr s) (h₀ : Initial D s₀) :
    OtokenFactory.WellFormed A s.factory :=
  Run.invariant (I := fun s ↦ OtokenFactory.WellFormed A s.factory) h₀.factory.wellFormed
    (fun _ _ _ hf hs ↦ hs.factory_wellFormed hf) hrun

/-- **A run of the platform is a run of the settler and the controller.** -/
theorem run_settler (hrun : Run (Step D T A rent verifies) s₀ tr s) (h₀ : Initial D s₀) :
    Run (Settler.Step D T rent verifies) s₀.settler
      (tr.filterMap (Transition.seen State.settler (Label.settled A))) s.settler :=
  Run.project (I := fun s ↦ OtokenFactory.WellFormed A s.factory) h₀.factory.wellFormed
    (fun _ _ _ hf hs ↦ hs.factory_wellFormed hf) (fun _ _ _ hf hs ↦ hs.settled hf) hrun

/-! ## The part of the four programs -/

/-- A call that reads no account of another program is one next to any others. -/
theorem reads_of_selfContained {ix : Controller.Instruction} (h : ix.SelfContained) (p : Protocol.State) :
    p.Reads ix := by
  cases ix with
  | createOtokenInfo ctx => exact absurd h id
  | setExpiryPrice ctx => exact absurd h id
  | _ => trivial

/-- **A step of the platform is a run of the four programs.** -/
theorem Step.run_protocol (hf : OtokenFactory.WellFormed A s.factory)
    (hu : s.settler.ctrl.ledger.Undelegated D.IsControllerPda) (h : Step D T A rent verifies s l s') :
    ∃ ptr, Run (Protocol.Step D T A) s.protocol ptr s'.protocol := by
  have hsettled := h.settled hf
  cases h with
  | lamports _ => exact ⟨[], .nil⟩
  | protocol _ _ h => exact ⟨_, .single h⟩
  | @settler ix s₁ hsigners hix _ =>
    -- the settler's calls and transfers, one after the other, next to accounts that stay as they are
    refine (Settler.Step.move hsettled).within (R := fun c c' ↦ ∃ ptr, Run (Protocol.Step D T A)
      { s.protocol with controller := c } ptr { s.protocol with controller := c' })
      (fun c ↦ ⟨[], .nil⟩) ?_ ?_ ?_ ?_ ?_ hu
    · rintro c₁ c₂ c₃ ⟨tr₁, h₁⟩ ⟨tr₂, h₂⟩
      exact ⟨_, h₁.append h₂⟩
    · rintro c ix c' hs hself
      cases hs with
      | call hsigner _ h => exact ⟨_, .single (.controller hsigner (reads_of_selfContained hself _) h)⟩
    · rintro c c' hs
      cases hs with
      | token h => exact ⟨_, .single (.token h)⟩
    · rintro c c' ⟨ptr, hrun⟩ hu
      exact undelegated_of_run (p := { s.protocol with controller := c }) hf hu hrun
    · cases ix with
      | physicalRedeem ctx n m swap =>
        intro c c' hu hc
        obtain ⟨ptr, hrun, -⟩ := hix c c' hu hc
        exact ⟨ptr, hrun⟩
      | _ => trivial

/-- **A run of the platform is a run of the four programs.** -/
theorem run_protocol (hrun : Run (Step D T A rent verifies) s₀ tr s) (h₀ : Initial D s₀) :
    ∃ ptr, Run (Protocol.Step D T A) s₀.protocol ptr s.protocol := by
  obtain ⟨ptr, h, -⟩ := Run.simulate (p := State.protocol) (P := fun _ ↦ True) (Q := fun _ ↦ True)
    (J := fun p ↦ OtokenFactory.WellFormed A p.factory ∧ p.controller.ledger.Undelegated D.IsControllerPda)
    ⟨h₀.factory.wellFormed, h₀.settler.ctrl.undelegated⟩
    (fun _ _ _ hJ hs ↦ ⟨hs.factory_wellFormed hJ.1, undelegated_of_run hJ.1 hJ.2 (.single hs)⟩)
    (fun _ _ _ hJ hs _ ↦ (hs.run_protocol hJ.1 hJ.2).imp fun _ h ↦ ⟨h, fun _ _ ↦ trivial⟩)
    hrun fun _ _ ↦ trivial
  exact ⟨ptr, h⟩

/-! ## Scripts -/

/-- Actions that concrete runs are made of. -/
inductive Action where
  | settler (ix : Settler.Instruction)
  | protocol (a : Protocol.Action)
  | fund (k : Settler.Address) (lamports : ℕ)

def Action.label : Action → Label
  | .settler ix => .settler ix
  | .protocol a => .protocol a.label
  | .fund .. => .lamports

/-- Carry out an action. -/
def Action.next (D : Deployment) (T : TokenProgram) (A : SeriesAddresses D) (rent : ℕ → ℕ) :
    Action → State → Option State
  | .settler ix, s => (Settler.exec D T rent ix s.settler).toOption.map fun settler ↦ { s with settler }
  | .protocol a, s =>
    (a.next D T A s.protocol).map fun p ↦
      ⟨{ s.settler with ctrl := p.controller }, p.oracle, p.factory, p.whitelist⟩
  | .fund k n, s =>
    some { s with settler := { s.settler with
      system := s.settler.system.insert k { s.settler.system.get k with
        lamports := (s.settler.system.get k).lamports + n } } }

/-- The action is open to somebody other than the programs. -/
def Action.Allowed (D : Deployment) (T : TokenProgram) (A : SeriesAddresses D)
    (verifies : Ed25519.Signed → Bool) : Action → Prop
  | .settler ix => (∀ k ∈ ix.signers, ¬D.IsPda k) ∧ ∀ p, Admissible D T A verifies p ix
  | .protocol a => ∀ ix, a = .controller ix → ¬D.IsPda ix.signer
  | .fund .. => True

theorem Action.step {a : Action} (ha : a.Allowed D T A verifies) (h : a.next D T A rent s = some s') :
    Step D T A rent verifies s a.label s' := by
  cases a with
  | settler ix =>
    obtain ⟨s₁, hs₁, rfl⟩ := Option.map_eq_some_iff.mp h
    exact .settler ha.1 (ha.2 _) (Except.toOption_eq_some.mp hs₁)
  | protocol a =>
    obtain ⟨p, hp, rfl⟩ := Option.map_eq_some_iff.mp h
    refine .protocol (fun ix hix ↦ ?_) (fun htoken ↦ ?_) (Protocol.Action.step ?_ hp)
    · cases a with
      | controller ix' =>
        rw [Protocol.Action.label, Protocol.Label.controller.injEq] at hix
        exact hix ▸ ha ix' rfl
      | _ => cases hix
    · cases a with
      | openAccount k mint owner =>
        obtain ⟨hk, hs⟩ := Option.ite_none_right_eq_some.mp hp
        obtain rfl := Option.some.inj hs
        exact Ledger.Rely.open mint owner hk
      | _ => cases htoken
    · cases a with
      | controller ix => exact D.not_isControllerPda_of_not_isPda (ha ix rfl)
      | _ => trivial
  | fund k n =>
    rw [Action.next, Option.some.injEq] at h
    subst h
    refine .lamports fun l _ ↦ ?_
    by_cases hl : l = k
    · subst hl
      simp
    · simp [hl]

section Sample

open Settler (otherKey)

def sampleState : State where
  settler := Settler.sampleState
  oracle := ⟨none, ∅, ∅⟩
  factory := ⟨none, none, ∅⟩
  whitelist := ⟨none, ∅⟩

theorem sampleState_initial : Initial sampleDeployment sampleState where
  settler := Settler.sampleState_initial
  oracle := rfl
  factory := ⟨rfl, rfl, rfl⟩
  whitelist := rfl

/-- User `1` administers the programs. A covered-call series on the asset `10` is created, whitelisted and
registered, and the settler trades for one maker. -/
def sampleSetup : List Action :=
  [.fund (.wallet 1) 100000, .fund (.wallet otherKey) 100000, .fund .rentReserve 100000,
   .protocol (.controller (.initializeConfig 1 1)), .protocol (.factory (.initializeConfig 1)),
   .protocol (.factory (.setController 1 sampleDeployment.controllerConfig)),
   .protocol (.factory (.setOperator 1 1)), .protocol (.whitelist (.initializeConfig 1)),
   .protocol (.factory (.createOtoken
     ⟨10, 15, 10, 500000000, 100, false, sampleDeployment.controllerConfig, 1⟩)),
   .protocol (.whitelist (.whitelistOtoken ⟨20, ⟨10, 15, 10, 500000000, 100, false, 20⟩, some 1, 1⟩)),
   .protocol (.controller (.createOtokenInfo
     ⟨20, ⟨10, 15, 10, 500000000, 100, false, 20⟩, 10, ⟨20, true⟩, some 1, 1⟩)),
   .protocol (.openAccount 41 20 4), .protocol (.openAccount 42 10 4),
   .settler (.initializeConfig 1 1 2 100 259200 7), .settler (.initVaultCounter 1 4),
   .settler (.whitelistMaker 1 otherKey true)]

/-- The state a script leads to from the sample state. -/
def sampleRun (as : List Action) : State :=
  Run.playState (Action.next sampleDeployment splToken Protocol.sampleAddresses id) sampleState as

/-- The transitions of that script. -/
def sampleTrace (as : List Action) : List (Transition State Label) :=
  Run.playTrace (Action.next sampleDeployment splToken Protocol.sampleAddresses id) Action.label sampleState as

theorem admissible_of_eq_true {ix : Settler.Instruction} (h : ix.admissible verifies = true)
    (p : Protocol.State) : Admissible D T A verifies p ix := by
  cases ix with
  | executeOrder ctx ord tx i =>
    rw [Settler.Instruction.admissible, decide_eq_true_eq] at h
    exact h
  | physicalRedeem ctx n m swap => exact absurd h Bool.false_ne_true
  | _ => trivial

/-- The action is open to user `1` and the maker. -/
def Action.bySampleUser (verifies : Ed25519.Signed → Bool) : Action → Bool
  | .settler ix => (ix.signers.all fun k ↦ decide (k = 1 ∨ k = otherKey)) && ix.admissible verifies
  | .protocol a => a.bySampleUser
  | .fund .. => true

theorem Action.allowed_of_bySampleUser {A : SeriesAddresses sampleDeployment} {a : Action}
    (h : a.bySampleUser verifies = true) : a.Allowed sampleDeployment T A verifies := by
  have hone : ¬sampleDeployment.IsPda 1 :=
    Settler.sampleDeployment_not_isPda (by decide) (by decide) (by decide)
  cases a with
  | fund _ _ => trivial
  | protocol a =>
    rintro ix rfl
    have hsigner : ix.signer = 1 := of_decide_eq_true h
    rw [hsigner]
    exact hone
  | settler ix =>
    rw [Action.bySampleUser, Bool.and_eq_true, List.all_eq_true] at h
    refine ⟨fun k hk ↦ ?_, admissible_of_eq_true h.2⟩
    rcases of_decide_eq_true (h.1 k hk) with rfl | rfl
    · exact hone
    · exact Settler.sampleDeployment_not_isPda (by decide) (by decide) (by decide)

theorem sampleRun_run {as : List Action} (ha : as.all (Action.bySampleUser verifies) = true)
    (hplay : Run.playable (Action.next sampleDeployment splToken Protocol.sampleAddresses id) sampleState as =
      true) :
    Run (Step sampleDeployment splToken Protocol.sampleAddresses id verifies) sampleState (sampleTrace as)
      (sampleRun as) :=
  Run.of_script _ _ (fun a h _ _ hn ↦ Action.step
    (Action.allowed_of_bySampleUser (List.all_eq_true.mp ha a h)) hn) hplay

end Sample

end Platform

end OptionsProtocol
