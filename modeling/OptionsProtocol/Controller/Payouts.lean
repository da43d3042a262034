import OptionsProtocol.Controller.Invariants

/-!
# What the events say was paid

Two kinds of event report a payout: a redemption pays one out, a settlement reserves one. Whatever has
happened since, what they report is what the series pays at the price it has now, since neither its
terms nor its price have changed.
-/

namespace OptionsProtocol

namespace Controller

variable {D : Deployment} {T : TokenProgram} {s s' s₀ : State} {l : Label}
  {tr : List (Transition State Label)}

/-- A series that is past its expiry and has its price. -/
structure State.Pays (s : State) (o : Pubkey) (info : OTokenInfo) : Prop where
  info_eq : s.otokenInfos.lookup o = some info
  priced : 0 < info.expiryPrice
  expired : info.expiry ≤ s.clock

/-- What the event says was paid or reserved is what the series pays. -/
def State.Justifies (s : State) : Event → Prop
  | .redeemed otoken _ otokenAmount payout =>
    ∃ info, s.Pays otoken info ∧ payout = info.payout otokenAmount
  | .vaultSettled owner vaultId collateralReturned payoutReserved =>
    ∃ v info, s.vaults.lookup ⟨owner, vaultId⟩ = some v ∧ v.settled = true ∧ 0 < v.shortAmount ∧
      s.Pays v.otokenMint info ∧ payoutReserved = info.payout v.shortAmount ∧
      collateralReturned + payoutReserved = v.collateralAmount
  | _ => True

theorem Move.pays (h : Move D T s l s') {o : Pubkey} {info : OTokenInfo} (hp : s.Pays o info) :
    s'.Pays o info := by
  obtain ⟨info', hi', hlater⟩ := h.info_later hp.info_eq
  obtain rfl := hlater.eq_of_priced hp.priced
  exact ⟨hi', hp.priced, hp.expired.trans h.clock_le⟩

theorem Move.justifies (h : Move D T s l s') {e : Event} (he : s.Justifies e) : s'.Justifies e := by
  cases e with
  | redeemed otoken redeemer n p =>
    obtain ⟨info, hp, heq⟩ := he
    exact ⟨info, h.pays hp, heq⟩
  | vaultSettled owner id returned reserved =>
    obtain ⟨v, info, hv, hset, hshort, hp, heq, hsum⟩ := he
    obtain ⟨v', hv', hlater⟩ := h.vault_later hv
    obtain rfl := hlater.settled hset
    exact ⟨v', info, hv', hset, hshort, h.pays hp, heq, hsum⟩
  | _ => trivial

theorem SettleVault.Effect.justifies {ctx : SettleVault} {v : Vault} {info : OTokenInfo}
    {pool ben : TokenAccount} {L : Ledger} (h : SettleVault.Effect D T s ctx v info pool ben L s') :
    s'.Justifies (.vaultSettled v.owner v.vaultId
      (v.collateralAmount - info.payout v.shortAmount) (info.payout v.shortAmount)) := by
  rw [h.state_eq]
  refine ⟨{ v with settled := true }, info, ?_, rfl, h.short_pos, ⟨h.info_eq, h.priced, h.expired⟩, rfl,
    Nat.sub_add_cancel h.payout_le⟩
  rw [h.key_eq, Finmap.lookup_insert]

theorem Redeem.Effect.justifies {ctx : Redeem} {n : ℕ} {info : OTokenInfo}
    {otoken coll pool : TokenAccount} {B L : Ledger}
    (h : Redeem.Effect D T s ctx n info otoken coll pool B L s') :
    s'.Justifies (.redeemed ctx.otokenMint ctx.redeemer n (info.payout n)) := by
  rw [h.state_eq]
  exact ⟨info, ⟨h.info_eq, h.priced, h.expired⟩, rfl⟩

/-- **Every event is justified**, once those before the step were. -/
theorem Move.log_justified (h : Move D T s l s') (hs : ∀ e ∈ s.log, s.Justifies e) :
    ∀ e ∈ s'.log, s'.Justifies e := by
  have hgrow : ∀ {es : List Event}, s'.log = s.log ++ es → (∀ e ∈ es, s'.Justifies e) →
      ∀ e ∈ s'.log, s'.Justifies e := by
    intro es hlog hes e he
    rw [hlog] at he
    rcases List.mem_append.mp he with he | he
    · exact h.justifies (hs e he)
    · exact hes e he
  have hsame : s'.log = s.log → ∀ e ∈ s'.log, s'.Justifies e := by
    intro hlog
    have hnil : s'.log = s.log ++ [] := by rw [hlog, List.append_nil]
    exact hgrow hnil (by simp)
  cases h with
  | administered _ ha =>
    obtain ⟨es, hlog, hes⟩ := ha.log_eq
    refine hgrow hlog fun e he ↦ ?_
    have hadmin := hes e he
    cases e with
    | redeemed _ _ _ _ | vaultSettled _ _ _ _ => exact absurd hadmin id
    | _ => trivial
  | opened he => exact hgrow (by rw [he.state_eq]) (by simp [State.Justifies])
  | deposited _ he => exact hgrow (by rw [he.state_eq]) (by simp [State.Justifies])
  | minted he => exact hgrow (by rw [he.state_eq]) (by simp [State.Justifies])
  | settled he =>
    exact hgrow (by rw [he.state_eq]) fun e hmem ↦ List.mem_singleton.mp hmem ▸ he.justifies
  | redeemed _ he =>
    exact hgrow (by rw [he.state_eq]) fun e hmem ↦ List.mem_singleton.mp hmem ▸ he.justifies
  | withdrawn he => exact hgrow (by rw [he.state_eq]) (by simp [State.Justifies])
  | registered _ he => exact hsame (by rw [he.state_eq])
  | priced he => exact hsame (by rw [he.state_eq])
  | token _ => exact hsame rfl
  | tick _ => exact hsame rfl
  | created _ _ => exact hsame rfl

end Controller

end OptionsProtocol
