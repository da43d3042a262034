import OptionsProtocol.Settler.Signatures

/-!
# Fill counters and nonces

A quote can be filled by many orders of many users, in parts. The settler keeps one counter for
each maker, nonce and quote id, while the cap is in the message an order presents, so messages that
agree on these three draw on one counter. The counter is created by whichever of `execute_order` and
`cancel_quote` comes first.

Two facts about a step carry everything here: a counter moves by what is executed under it, and it
never loses the mark of a cancellation.
-/

namespace OptionsProtocol

namespace Settler

variable {D : Deployment} {T : TokenProgram} {rent : ℕ → ℕ} {verifies : Ed25519.Signed → Bool}
  {s s' s₀ : State} {l : Label} {tr : List (Transition State Label)}

/-- What a step executes under a fill counter. -/
def Label.executedUnder (k : QuoteKey) : Label → ℕ
  | .call (.executeOrder ctx ord _ _) => if ctx.quoteKey ord = k then ord.amount.toNat else 0
  | _ => 0

/-- What a step executes of the quote that has this message. -/
def Label.executedOf (maker : Pubkey) (message : List UInt8) : Label → ℕ
  | .call (.executeOrder ctx ord _ _) =>
    if ctx.maker = maker ∧ ord.message ctx.otokenMint = message then ord.amount.toNat else 0
  | _ => 0

/-- The step executes an order under the counter. -/
def Label.Executes (k : QuoteKey) : Label → Prop
  | .call (.executeOrder ctx ord _ _) => ctx.quoteKey ord = k
  | _ => False

/-! ## The counters after a step -/

theorem filledAmount_of_insert {k : QuoteKey} {fill : QuoteFill}
    (h : s'.quoteFills = s.quoteFills.insert k fill) (k' : QuoteKey) :
    s'.filledAmount k' = if k' = k then fill.filledAmount else s.filledAmount k' := by
  rw [State.filledAmount, h, Store.lookup_insert_eq]
  split <;> rfl

theorem isCancelled_of_insert {k : QuoteKey} {fill : QuoteFill}
    (h : s'.quoteFills = s.quoteFills.insert k fill) (k' : QuoteKey) :
    s'.isCancelled k' = if k' = k then fill.cancelled else s.isCancelled k' := by
  rw [State.isCancelled, h, Store.lookup_insert_eq]
  split <;> rfl

/-- **The counters after a step**: as they were, or one was cancelled, or an order was executed
under one that was not. -/
theorem Move.quoteFills (h : Move D T verifies s l s') :
    (s'.quoteFills = s.quoteFills ∧ ∀ k, ¬l.Executes k) ∨
    (∃ k, s'.quoteFills = s.quoteFills.insert k ⟨s.filledAmount k, true⟩ ∧ ∀ k, ¬l.Executes k) ∨
    (∃ ctx ord tx i r, l = .call (.executeOrder ctx ord tx i) ∧
      ExecuteOrder.Effect D T s ctx ord tx i r s') := by
  cases h with
  | @configured ix _ hix h =>
    refine .inl ⟨h.quoteFills_eq, fun k hk ↦ ?_⟩
    cases ix <;> first | exact hix | exact hk
  | counted _ => exact .inl ⟨rfl, fun _ ↦ id⟩
  | listed => exact .inl ⟨rfl, fun _ ↦ id⟩
  | bumped _ => exact .inl ⟨rfl, fun _ ↦ id⟩
  | cancelled => exact .inr (.inl ⟨_, rfl, fun _ ↦ id⟩)
  | executed _ _ h => exact .inr (.inr ⟨_, _, _, _, _, rfl, h⟩)
  | settled _ _ => exact .inl ⟨rfl, fun _ ↦ id⟩
  | withdrawn _ h => exact .inl ⟨by rw [h.state_eq], fun _ ↦ id⟩
  | redeemed hix h =>
    refine .inl ⟨by rw [h.state_eq], fun _ ↦ ?_⟩
    rcases hix with rfl | rfl <;> exact id
  | delivered _ h => exact .inl ⟨by rw [h.state_eq], fun _ ↦ id⟩
  | controller _ _ _ => exact .inl ⟨rfl, fun _ ↦ id⟩
  | lamports _ => exact .inl ⟨rfl, fun _ ↦ id⟩

theorem Label.executedUnder_eq_zero {k : QuoteKey} (h : ¬l.Executes k) : l.executedUnder k = 0 := by
  cases l with
  | call ix =>
    cases ix with
    | executeOrder ctx ord tx i => exact if_neg h
    | _ => rfl
  | controller _ => rfl
  | lamports => rfl

theorem Label.executedOf_eq_zero {maker : Pubkey} {message : List UInt8} (h : ∀ k, ¬l.Executes k) :
    l.executedOf maker message = 0 := by
  cases l with
  | call ix =>
    cases ix with
    | executeOrder ctx ord tx i => exact absurd rfl (h (ctx.quoteKey ord))
    | _ => rfl
  | controller _ => rfl
  | lamports => rfl

/-- **A counter moves by what is executed under it.** -/
theorem Move.filledAmount_eq (h : Move D T verifies s l s') (k : QuoteKey) :
    s'.filledAmount k = s.filledAmount k + l.executedUnder k := by
  rcases h.quoteFills with ⟨heq, hl⟩ | ⟨k', heq, hl⟩ | ⟨ctx, ord, tx, i, r, rfl, he⟩
  · rw [Label.executedUnder_eq_zero (hl k), State.filledAmount, heq]
    rfl
  · rw [Label.executedUnder_eq_zero (hl k), filledAmount_of_insert heq]
    split
    · rename_i hk
      rw [hk]
      rfl
    · rfl
  · rw [filledAmount_of_insert (congrArg State.quoteFills he.state_eq), Label.executedUnder]
    by_cases hk : k = ctx.quoteKey ord
    · rw [if_pos hk, if_pos hk.symm, hk]
    · rw [if_neg hk, if_neg (Ne.symm hk), Nat.add_zero]

theorem Move.isCancelled (h : Move D T verifies s l s') {k : QuoteKey}
    (hk : s.isCancelled k = true) : s'.isCancelled k = true := by
  rcases h.quoteFills with ⟨heq, -⟩ | ⟨k', heq, -⟩ | ⟨ctx, ord, tx, i, r, rfl, he⟩
  · rw [State.isCancelled, heq]
    exact hk
  · rw [isCancelled_of_insert heq]
    split
    · rfl
    · exact hk
  · have hne : k ≠ ctx.quoteKey ord := by
      rintro rfl
      rw [he.not_cancelled] at hk
      exact absurd hk Bool.false_ne_true
    rw [isCancelled_of_insert (congrArg State.quoteFills he.state_eq), if_neg hne]
    exact hk

theorem Move.filledAmount_le {ctx : ExecuteOrder} {ord : Order} {tx : Transaction} {i : ℕ}
    (h : Move D T verifies s (.call (.executeOrder ctx ord tx i)) s') :
    s.filledAmount (ctx.quoteKey ord) + ord.amount.toNat ≤ ord.maxAmount.toNat := by
  cases h with
  | configured hix _ => exact absurd hix id
  | executed _ _ h => exact h.filled_le
  | redeemed hix _ => rcases hix with hix | hix <;> cases hix

/-! ## No overfill -/

theorem Order.of_message_eq {ord : Order} {o o' p : Pubkey} {b q x n : UInt64} {d : Int64}
    (h : ord.message o' = buildQuoteMessage o b.toNat d.toInt q.toNat x.toNat n.toNat p) :
    ord.makerNonce = n ∧ ord.quoteId = q ∧ ord.maxAmount = x := by
  have hquote : (⟨o', ord.premiumMint, ord.bidPrice, ord.deadline, ord.quoteId, ord.maxAmount,
      ord.makerNonce⟩ : Quote) = ⟨o, p, b, d, q, x, n⟩ := Quote.message_injective h
  obtain ⟨-, -, -, -, hq, hx, hn⟩ := Quote.mk.inj hquote
  exact ⟨hn, hq, hx⟩

/-- **No overfill.** In every run the counter of a maker, nonce and quote id is the sum of what was
executed under them, and what was executed of one message stays within its maximum. -/
theorem quotes_not_overfilled (hrun : Run (Step D T rent verifies) s₀ tr s) (h₀ : Initial D s₀) :
    (∀ k, s.filledAmount k = Run.history (fun t ↦ t.label.executedUnder k) tr) ∧
    ∀ (maker otokenMint premiumMint : Pubkey) (bidPrice quoteId maxAmount makerNonce : UInt64)
      (deadline : Int64),
      Run.history (fun t ↦ t.label.executedOf maker (buildQuoteMessage otokenMint bidPrice.toNat
        deadline.toInt quoteId.toNat maxAmount.toNat makerNonce.toNat premiumMint)) tr
        ≤ maxAmount.toNat := by
  constructor
  · intro k
    refine Run.invariant_history (I := fun s n ↦ s.filledAmount k = n) ?_
      (fun s l s' n hI hs ↦ ?_) hrun
    · rw [State.filledAmount, h₀.quoteFills]
      rfl
    · rw [hs.move.filledAmount_eq, hI]
  · intro maker otokenMint premiumMint bidPrice quoteId maxAmount makerNonce deadline
    generalize hmessage : buildQuoteMessage otokenMint bidPrice.toNat deadline.toInt quoteId.toNat
      maxAmount.toNat makerNonce.toNat premiumMint = message
    -- what was executed of the message was also executed under its counter
    have hstep : ∀ s l s' n, (n ≤ s.filledAmount ⟨maker, makerNonce.toNat, quoteId.toNat⟩ ∧
        n ≤ maxAmount.toNat) → Step D T rent verifies s l s' →
        n + l.executedOf maker message ≤ s'.filledAmount ⟨maker, makerNonce.toNat, quoteId.toNat⟩ ∧
          n + l.executedOf maker message ≤ maxAmount.toNat := by
      intro s l s' n hI hs
      have hmove := hs.move
      rcases hmove.quoteFills with ⟨-, hl⟩ | ⟨-, -, hl⟩ | ⟨ctx, ord, tx, i, r, rfl, he⟩
      · rw [Label.executedOf_eq_zero hl, hmove.filledAmount_eq]
        exact ⟨hI.1.trans (Nat.le_add_right _ _), hI.2⟩
      · rw [Label.executedOf_eq_zero hl, hmove.filledAmount_eq]
        exact ⟨hI.1.trans (Nat.le_add_right _ _), hI.2⟩
      · have hcap := hmove.filledAmount_le
        rw [hmove.filledAmount_eq]
        by_cases hpresented : ctx.maker = maker ∧ ord.message ctx.otokenMint = message
        · obtain ⟨hn, hq, hx⟩ := Order.of_message_eq (hpresented.2.trans hmessage.symm)
          have hkey : ctx.quoteKey ord = ⟨maker, makerNonce.toNat, quoteId.toNat⟩ := by
            rw [ExecuteOrder.quoteKey, hpresented.1, hn, hq]
          rw [hkey, hx] at hcap
          simp only [Label.executedOf, Label.executedUnder, if_pos hpresented, if_pos hkey]
          omega
        · simp only [Label.executedOf, if_neg hpresented]
          exact ⟨hI.1.trans (Nat.le_add_right _ _), hI.2⟩
    exact (Run.invariant_history (f := fun t ↦ t.label.executedOf maker message)
      (I := fun s n ↦ n ≤ s.filledAmount ⟨maker, makerNonce.toNat, quoteId.toNat⟩ ∧
        n ≤ maxAmount.toNat) ⟨Nat.zero_le _, Nat.zero_le _⟩ hstep hrun).2

/-- One quote, filled in two parts and cancelled. -/
def sampleFilled : List Action := sampleSetup ++ [sampleExecute 0, sampleExecute 1]

def sampleCancel : Action := .call (.cancelQuote otherKey 1)

/-- The maker is delisted and listed again, and raises its nonce. -/
def sampleRelisted : List Action :=
  [.call (.whitelistMaker 1 otherKey false), .call (.whitelistMaker 1 otherKey true),
   .call (.incrementMakerNonce otherKey)]

def sampleQuotes : List Action := sampleFilled ++ sampleCancel :: sampleRelisted

theorem sampleQuotes_run : Run (Step sampleDeployment splToken id sampleScheme) sampleState
    (sampleTrace sampleQuotes) (sampleRun sampleQuotes) :=
  sampleRun_run (by decide +kernel) (by decide +kernel)

theorem quotes_not_overfilled_sample :
    (sampleRun sampleQuotes).filledAmount ⟨otherKey, 0, 1⟩ =
      Run.history (fun t ↦ t.label.executedUnder ⟨otherKey, 0, 1⟩) (sampleTrace sampleQuotes) ∧
    Run.history (fun t ↦ t.label.executedOf otherKey (sampleOrder.message 20))
      (sampleTrace sampleQuotes) ≤ 3000000 :=
  have h := quotes_not_overfilled sampleQuotes_run sampleState_initial
  ⟨h.1 _, h.2 otherKey 20 10 100000000 1 3000000 0 1000⟩

/-! ## Finality -/

/-- Every maker's record is in its own name. -/
def MakersNamed (s : State) : Prop :=
  ∀ m state, s.makerStates.lookup m = some state → state.maker = m

/-- **The makers after a step**: as they were, or one was listed or delisted, or one raised its
nonce. -/
theorem Move.makerStates (h : Move D T verifies s l s') :
    s'.makerStates = s.makerStates ∨
    (∃ m whitelisted, s'.makerStates = s.makerStates.insert m
      (((s.makerStates.lookup m).getD .zeroed).listed m whitelisted)) ∨
    (∃ m state, s.makerStates.lookup m = some state ∧
      s'.makerStates = s.makerStates.insert m { state with nonce := state.nonce + 1 }) := by
  cases h with
  | configured _ h => exact .inl h.makerStates_eq
  | counted _ => exact .inl rfl
  | listed => exact .inr (.inl ⟨_, _, rfl⟩)
  | bumped h => exact .inr (.inr ⟨_, _, h, rfl⟩)
  | cancelled => exact .inl rfl
  | executed _ _ h => exact .inl (by rw [h.state_eq])
  | settled _ _ => exact .inl rfl
  | withdrawn _ h => exact .inl (by rw [h.state_eq])
  | redeemed _ h => exact .inl (by rw [h.state_eq])
  | delivered _ h => exact .inl (by rw [h.state_eq])
  | controller _ _ _ => exact .inl rfl
  | lamports _ => exact .inl rfl

theorem Move.makersNamed (h : Move D T verifies s l s') (hn : MakersNamed s) : MakersNamed s' := by
  intro m state hm
  rcases h.makerStates with heq | ⟨m', w, heq⟩ | ⟨m', state', hm', heq⟩
  · exact hn m state (heq ▸ hm)
  · rw [heq] at hm
    rcases Store.lookup_insert_eq_some.mp hm with ⟨rfl, rfl⟩ | ⟨-, hm⟩
    · rw [MakerState.listed]
      split
      · rfl
      · rename_i hne
        cases hk : s.makerStates.lookup m with
        | none => exact absurd rfl (hk ▸ hne)
        | some state₀ => exact hn m state₀ hk
    · exact hn m state hm
  · rw [heq] at hm
    rcases Store.lookup_insert_eq_some.mp hm with ⟨rfl, rfl⟩ | ⟨-, hm⟩
    · exact hn m state' hm'
    · exact hn m state hm

theorem nonceOf_of_insert {m : Pubkey} {state : MakerState}
    (h : s'.makerStates = s.makerStates.insert m state) (m' : Pubkey) :
    s'.nonceOf m' = if m' = m then state.nonce else s.nonceOf m' := by
  rw [State.nonceOf, h, Store.lookup_insert_eq]
  split <;> rfl

/-- **A nonce never decreases.** Listing a maker again resets nothing: the record is its own. -/
theorem Move.nonceOf_le (h : Move D T verifies s l s') (hn : MakersNamed s) {m : Pubkey}
    (hm : m ≠ Pubkey.default) : s.nonceOf m ≤ s'.nonceOf m := by
  rcases h.makerStates with heq | ⟨m', w, heq⟩ | ⟨m', state, hm', heq⟩
  · rw [State.nonceOf, State.nonceOf, heq]
  · rw [nonceOf_of_insert heq]
    split
    · rename_i hmm
      subst hmm
      rw [State.nonceOf]
      cases hk : s.makerStates.lookup m with
      | none => exact Nat.zero_le _
      | some state =>
        have hne : state.maker ≠ Pubkey.default := (hn m state hk).symm ▸ hm
        rw [Option.getD_some, Option.elim_some, MakerState.listed, if_neg hne]
    · exact le_rfl
  · rw [nonceOf_of_insert heq]
    split
    · rename_i hmm
      subst hmm
      rw [State.nonceOf, hm', Option.elim_some]
      exact Nat.le_succ _
    · exact le_rfl

theorem Move.executes (h : Move D T verifies s l s') {k : QuoteKey} (hk : l.Executes k) :
    s.nonceOf k.maker = k.nonce ∧ s.isCancelled k = false := by
  rcases h.quoteFills with ⟨-, hl⟩ | ⟨-, -, hl⟩ | ⟨ctx, ord, tx, i, r, rfl, he⟩
  · exact absurd hk (hl k)
  · exact absurd hk (hl k)
  · obtain rfl : ctx.quoteKey ord = k := hk
    refine ⟨?_, he.not_cancelled⟩
    rw [State.nonceOf, ExecuteOrder.quoteKey, he.maker_eq, Option.elim_some]

theorem makersNamed_of_run (hrun : Run (Step D T rent verifies) s₀ tr s) (h₀ : Initial D s₀) :
    MakersNamed s :=
  Run.invariant (I := MakersNamed)
    (fun m state hm ↦ by
      rw [h₀.makerStates] at hm
      exact absurd hm (by simp))
    (fun _ _ _ hI hs ↦ hs.move.makersNamed hI) hrun

/-- **Finality.** After any step of a run, a maker's nonce has not decreased and never will; no
order is executed any more at a nonce the maker has left behind; and if the step cancelled a quote
at the maker's nonce, no order is executed any more under its counter. -/
theorem quotes_final (hrun : Run (Step D T rent verifies) s₀ tr s) (h₀ : Initial D s₀) {m : Pubkey}
    (hm : m ≠ Pubkey.default) {as bs : List (Transition State Label)}
    {t : Transition State Label} (htr : tr = as ++ t :: bs) :
    (t.pre.nonceOf m ≤ t.post.nonceOf m ∧ t.post.nonceOf m ≤ s.nonceOf m ∧
      ∀ u ∈ bs, t.post.nonceOf m ≤ u.pre.nonceOf m) ∧
    (∀ n quoteId, n < t.post.nonceOf m → ∀ u ∈ bs, ¬u.label.Executes ⟨m, n, quoteId⟩) ∧
    (∀ quoteId, t.label = .call (.cancelQuote m quoteId) →
      ∀ u ∈ bs, ¬u.label.Executes ⟨m, t.pre.nonceOf m, quoteId.toNat⟩) := by
  subst htr
  obtain ⟨hbefore, hstep, -⟩ := Run.split hrun
  have hnamed := makersNamed_of_run hbefore h₀
  have hmove := hstep.move
  have hlater : ∀ u ∈ bs, Move D T verifies u.pre u.label u.post := fun u hu ↦
    (Run.step_of_mem hrun (List.mem_append_right _ (List.mem_cons_of_mem _ hu))).move
  obtain ⟨hend, hmid⟩ := Run.after
    (I := fun s ↦ MakersNamed s ∧ t.post.nonceOf m ≤ s.nonceOf m)
    (fun _ _ _ hI hs ↦ ⟨hs.move.makersNamed hI.1, hI.2.trans (hs.move.nonceOf_le hI.1 hm)⟩) hrun
    ⟨hmove.makersNamed hnamed, le_rfl⟩
  refine ⟨⟨hmove.nonceOf_le hnamed hm, hend.2, fun u hu ↦ (hmid u hu).2⟩, ?_, ?_⟩
  · intro n quoteId hn u hu hk
    have hnonce := ((hlater u hu).executes hk).1
    have hge := (hmid u hu).2
    dsimp only at hnonce
    omega
  · intro quoteId hlabel u hu hk
    have hpost : t.post.isCancelled ⟨m, t.pre.nonceOf m, quoteId.toNat⟩ = true := by
      obtain ⟨pre, label, post⟩ := t
      dsimp only at hlabel hmove ⊢
      subst hlabel
      cases hmove with
      | cancelled =>
        rw [State.isCancelled, Finmap.lookup_insert]
        rfl
      | configured hix _ => exact absurd hix id
      | redeemed hix _ => rcases hix with hix | hix <;> cases hix
    have hcancelled := (Run.after
      (I := fun s ↦ s.isCancelled ⟨m, t.pre.nonceOf m, quoteId.toNat⟩ = true)
      (fun _ _ _ hI hs ↦ hs.move.isCancelled hI) hrun hpost).2 u hu
    rw [((hlater u hu).executes hk).2] at hcancelled
    exact absurd hcancelled Bool.false_ne_true

theorem quotes_final_sample :
    (sampleRun (sampleFilled ++ [sampleCancel])).nonceOf otherKey
      ≤ (sampleRun sampleQuotes).nonceOf otherKey ∧
    ∀ u ∈ Run.playTrace (Action.next sampleDeployment splToken id) Action.label
        (sampleRun (sampleFilled ++ [sampleCancel])) sampleRelisted,
      ¬u.label.Executes ⟨otherKey, (sampleRun sampleFilled).nonceOf otherKey, (1 : UInt64).toNat⟩ := by
  have h := quotes_final sampleQuotes_run sampleState_initial (m := otherKey) (by decide)
    (Run.playTrace_append_cons _ _ (by decide +kernel))
  simp only [sampleRun] at h ⊢
  exact ⟨h.1.2.1, h.2.2 1 rfl⟩

end Settler

end OptionsProtocol
