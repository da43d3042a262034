import OptionsProtocol.Controller.PoolAccounting
import OptionsProtocol.Library.Journal

/-!
# The events as a journal

What can somebody who only follows the events know of the vaults? The reader below keeps a book: for
each vault what was deposited, what was minted and whether it is closed, and for each owner the next
id. Every event but one says exactly how the book changes, and the reader checks that it may come
next. The exception is `EmergencyWithdraw`: it names the beneficiary and the id of the vault, but not
the owner, so that it may concern any open vault of that id with that much collateral.

The events of a run can always be read, and the vaults are then as in one of the books they admit;
without emergency withdrawals there is only one.
-/

namespace OptionsProtocol

namespace Controller

/-! ## The reader's book -/

/-- What the events tell of a vault. -/
structure Entry where
  /-- Known from the first deposit on. -/
  asset : Option Pubkey
  collateral : ℕ
  otoken : Pubkey
  short : ℕ
  closed : Bool
  deriving DecidableEq

/-- A vault nothing has happened to. -/
def Entry.fresh : Entry := ⟨none, 0, Pubkey.default, 0, false⟩

@[ext] structure Book where
  entries : VaultKey → Option Entry
  nextId : Pubkey → ℕ

namespace Book

def empty : Book := ⟨fun _ ↦ none, fun _ ↦ 0⟩

/-- The entry of a vault that is still open. -/
def openEntry (b : Book) (k : VaultKey) : Option Entry := (b.entries k).filter fun e ↦ !e.closed

def write (b : Book) (k : VaultKey) (e : Entry) : Book :=
  { b with entries := Function.update b.entries k (some e) }

/-- Reading an event. -/
def read (b : Book) : Event → Option Book
  | .vaultOpened owner vaultId =>
    if vaultId = b.nextId owner ∧ b.entries ⟨owner, vaultId⟩ = none then
      some { b.write ⟨owner, vaultId⟩ .fresh with
        nextId := Function.update b.nextId owner (vaultId + 1) }
    else none
  | .collateralDeposited owner vaultId asset amount => do
    let e ← b.openEntry ⟨owner, vaultId⟩
    if (e.asset = none ∨ e.asset = some asset) ∧ 0 < amount ∧ e.collateral + amount < 2 ^ 64 then
      some (b.write ⟨owner, vaultId⟩
        { e with asset := some asset, collateral := e.collateral + amount })
    else none
  | .otokenMinted owner vaultId otoken amount => do
    let e ← b.openEntry ⟨owner, vaultId⟩
    if (e.otoken = Pubkey.default ∨ e.otoken = otoken) ∧ 0 < amount ∧ e.short + amount < 2 ^ 64 then
      some (b.write ⟨owner, vaultId⟩ { e with otoken, short := e.short + amount })
    else none
  | .vaultSettled owner vaultId collateralReturned payoutReserved => do
    let e ← b.openEntry ⟨owner, vaultId⟩
    if 0 < e.short ∧ collateralReturned + payoutReserved = e.collateral then
      some (b.write ⟨owner, vaultId⟩ { e with closed := true })
    else none
  | .emergencyWithdraw .. => none
  | .controllerInitialized _ | .redeemed .. | .systemPartiallyPaused _ | .systemFullyPaused _ => some b

/-- The books an event may lead to. -/
inductive Follows (b : Book) : Event → Book → Prop
  | read {e : Event} {b' : Book} (h : b.read e = some b') : Follows b e b'
  /-- Which vault was withdrawn from is left open. -/
  | emergency {k : VaultKey} {e : Entry} (beneficiary : Pubkey) (h : b.openEntry k = some e) :
      Follows b (.emergencyWithdraw beneficiary k.vaultId e.collateral)
        (b.write k { e with closed := true })

end Book

/-- The event is a withdrawal in an emergency. -/
def Event.IsEmergency : Event → Prop
  | .emergencyWithdraw .. => True
  | _ => False

instance (e : Event) : Decidable e.IsEmergency := by
  cases e <;> unfold Event.IsEmergency <;> infer_instance

/-- The entry of a vault. -/
def Vault.entry (v : Vault) : Entry where
  asset := if 0 < v.collateralAmount then some v.collateralMint else none
  collateral := v.collateralAmount
  otoken := v.otokenMint
  short := v.shortAmount
  closed := v.settled

/-- The id of the owner's next vault, whether its counter exists or not. -/
def State.nextIdOf (s : State) (owner : Pubkey) : ℕ :=
  (s.vaultCounters.lookup owner).elim 0 VaultCounter.nextId

/-- The book of a state. -/
def State.book (s : State) : Book where
  entries k := (s.vaults.lookup k).map Vault.entry
  nextId := s.nextIdOf

@[simp] theorem State.book_entries (s : State) (k : VaultKey) :
    s.book.entries k = (s.vaults.lookup k).map Vault.entry := rfl

@[simp] theorem State.book_nextId (s : State) (o : Pubkey) : s.book.nextId o = s.nextIdOf o := rfl

variable {D : Deployment} {T : TokenProgram} {s s' s₀ : State} {l : Label}
  {tr : List (Transition State Label)}

/-! ## What one step writes -/

theorem Book.openEntry_eq_some {b : Book} {k : VaultKey} {e : Entry} :
    b.openEntry k = some e ↔ b.entries k = some e ∧ e.closed = false := by
  simp [openEntry, Option.filter_eq_some_iff]

theorem State.book_openEntry {k : VaultKey} {v : Vault} (hv : s.vaults.lookup k = some v)
    (hs : v.settled = false) : s.book.openEntry k = some v.entry := by
  rw [Book.openEntry_eq_some]
  exact ⟨by rw [State.book_entries, hv, Option.map_some], hs⟩

theorem book_of_eq (hv : s'.vaults = s.vaults) (hn : s'.nextIdOf = s.nextIdOf) :
    s'.book = s.book := by
  rw [State.book, State.book, hv, hn]

theorem book_of_insert {k : VaultKey} {v : Vault} (hv : s'.vaults = s.vaults.insert k v)
    (hn : s'.nextIdOf = s.nextIdOf) : s'.book = s.book.write k v.entry := by
  ext1
  · funext k'
    by_cases hk : k' = k
    · subst hk
      simp [State.book, Book.write, hv]
    · simp [State.book, Book.write, hv, hk]
  · exact hn

theorem nextIdOf_of_administrative {ix : Instruction} (h : exec D T ix s = .ok s')
    (hix : ix.IsAdministrative) : s'.nextIdOf = s.nextIdOf := by
  cases ix with
  | initializeCounter owner =>
    simp only [exec, initializeCounter, Except.require_bind_eq_ok, Except.pure_eq_ok] at h
    obtain ⟨hnone, -, rfl⟩ := h
    funext o
    by_cases ho : o = owner
    · subst ho
      simp [State.nextIdOf, hnone]
    · simp [State.nextIdOf, ho]
  | initializeConfig payer admin =>
    simp only [exec, initializeConfig, Except.require_bind_eq_ok, Except.pure_eq_ok] at h
    obtain ⟨-, -, rfl⟩ := h
    rfl
  | setPartialPauser _ _ | setPartiallyPaused _ _ =>
    obtain ⟨_, -, h⟩ := Except.bind_eq_ok.mp h
    obtain ⟨-, h⟩ := Except.require_bind_eq_ok.mp h
    rw [Except.pure_eq_ok] at h
    subst h
    rfl
  | setFullyPaused _ _ =>
    obtain ⟨_, -, h⟩ := Except.bind_eq_ok.mp h
    rw [Except.pure_eq_ok] at h
    subst h
    rfl
  | _ => exact absurd hix (by simp [Instruction.IsAdministrative])

theorem Step.nextIdOf_eq (h : Step D T s l s') (hl : ∀ o c b, l ≠ .call (.openVault o c b)) :
    s'.nextIdOf = s.nextIdOf := by
  have hmove := h.move
  cases h with
  | token _ => rfl
  | tick _ => rfl
  | createOtoken _ _ => rfl
  | call _ _ hx =>
    cases hmove with
    | administered hix _ => exact nextIdOf_of_administrative hx hix
    | opened _ => exact absurd rfl (hl _ _ _)
    | deposited _ he | minted he | settled he | redeemed _ he | withdrawn he | registered _ he
    | priced he => rw [he.state_eq]; rfl

theorem OpenVault.Effect.book {o c b : Pubkey} {id : ℕ} (h : OpenVault.Effect s o c b id s') :
    s.book.read (.vaultOpened o id) = some s'.book := by
  have hid : id = s.book.nextId o := by
    rw [State.book_nextId, State.nextIdOf, h.counter, Option.elim_some]
  have hfresh : s.book.entries ⟨o, id⟩ = none := by
    rw [State.book_entries, h.fresh, Option.map_none]
  rw [Book.read, if_pos ⟨hid, hfresh⟩, Option.some.injEq, h.state_eq]
  ext1
  · funext k
    by_cases hk : k = ⟨o, id⟩
    · subst hk
      simp [State.book, Book.write, Vault.entry, Entry.fresh]
    · simp [State.book, Book.write, hk]
  · funext o'
    by_cases ho : o' = o
    · subst ho
      simp [State.book, State.nextIdOf]
    · simp [State.book, State.nextIdOf, ho]

theorem reading_administrative {b : Book} {es : List Event} (h : ∀ e ∈ es, e.IsAdministrative) :
    Reading Book.Follows b es b := by
  induction es with
  | nil => exact .nil b
  | cons e es ih =>
    refine .cons ?_ (ih fun f hf ↦ h f (List.mem_cons_of_mem _ hf))
    have he := h e List.mem_cons_self
    cases e with
    | controllerInitialized _ | systemPartiallyPaused _ | systemFullyPaused _ => exact .read rfl
    | _ => exact absurd he id

/-- **What a step writes can be read.** -/
theorem Step.reading (hw : WellFormed D s) (h : Step D T s l s') :
    ∃ es, s'.log = s.log ++ es ∧ Reading Book.Follows s.book es s'.book := by
  have hcount := h.nextIdOf_eq
  have hquiet : s'.vaults = s.vaults → s'.log = s.log → (∀ o c b, l ≠ .call (.openVault o c b)) →
      ∃ es, s'.log = s.log ++ es ∧ Reading Book.Follows s.book es s'.book := by
    intro hv hlog hl
    exact ⟨[], by rw [hlog, List.append_nil], book_of_eq hv (hcount hl) ▸ .nil _⟩
  cases h.move with
  | @administered ix _ hix ha =>
    obtain ⟨es, hlog, hes⟩ := ha.log_eq
    have hbook : s'.book = s.book := by
      refine book_of_eq ha.vaults_eq (hcount ?_)
      rintro o c b ⟨⟩
      exact hix
    exact ⟨es, hlog, hbook ▸ reading_administrative hes⟩
  | opened he => exact ⟨_, by rw [he.state_eq], .single (.read he.book)⟩
  | deposited _ he =>
    refine ⟨_, by rw [he.state_eq], .single (.read ?_)⟩
    have hopen := State.book_openEntry he.vault_eq he.unsettled
    rw [he.key_eq] at hopen
    rw [Book.read, hopen, Option.bind_eq_bind, Option.bind_some, if_pos, Option.some.injEq,
      book_of_insert (by rw [he.state_eq]) (hcount (by simp)), he.key_eq]
    · have hpos := he.amount_pos
      simp [Vault.entry, Nat.add_pos_right _ hpos]
    · refine ⟨?_, he.amount_pos, he.fits⟩
      simp only [Vault.entry]
      split
      · exact .inr rfl
      · exact .inl rfl
  | minted he =>
    refine ⟨_, by rw [he.state_eq], .single (.read ?_)⟩
    have hopen := State.book_openEntry he.vault_eq he.unsettled
    rw [(hw.vault he.vault_eq).key] at hopen
    rw [Book.read, hopen, Option.bind_eq_bind, Option.bind_some,
      if_pos ⟨he.bound, he.amount_pos, he.fits⟩, Option.some.injEq,
      book_of_insert (by rw [he.state_eq]) (hcount (by simp)), (hw.vault he.vault_eq).key]
    rfl
  | settled he =>
    refine ⟨_, by rw [he.state_eq], .single (.read ?_)⟩
    have hopen := State.book_openEntry he.vault_eq he.unsettled
    rw [he.key_eq] at hopen
    rw [Book.read, hopen, Option.bind_eq_bind, Option.bind_some,
      if_pos ⟨he.short_pos, Nat.sub_add_cancel he.payout_le⟩, Option.some.injEq,
      book_of_insert (by rw [he.state_eq]) (hcount (by simp)), he.key_eq]
    rfl
  | redeemed _ he =>
    have hbook : s'.book = s.book := book_of_eq (by rw [he.state_eq]) (hcount (by simp))
    exact ⟨_, by rw [he.state_eq], .single (.read (by rw [hbook]; rfl))⟩
  | @withdrawn ctx v _ _ _ _ he =>
    refine ⟨_, by rw [he.state_eq], .single ?_⟩
    have hopen := State.book_openEntry he.vault_eq he.unsettled
    have hbook : s'.book = s.book.write ctx.vault { v.entry with closed := true } :=
      book_of_insert (v := { v with settled := true }) (by rw [he.state_eq]) (hcount (by simp))
    have hid : v.vaultId = ctx.vault.vaultId := by rw [he.key_eq]
    rw [hbook, hid]
    exact .emergency v.beneficiary hopen
  | registered _ he => exact hquiet (by rw [he.state_eq]) (by rw [he.state_eq]) (by simp)
  | priced he => exact hquiet (by rw [he.state_eq]) (by rw [he.state_eq]) (by simp)
  | token _ => exact hquiet rfl rfl (by simp)
  | tick _ => exact hquiet rfl rfl (by simp)
  | created _ _ => exact hquiet rfl rfl (by simp)

/-! ## The journal of a run -/

theorem Initial.book_eq (h : Initial D s) : s.book = Book.empty := by
  ext1
  · funext k
    simp [State.book, h.vaults, Book.empty]
  · funext o
    simp [State.book, State.nextIdOf, h.vaultCounters, Book.empty]

/-- **The events of a run can be read**, and the book of its vaults is one they lead to. -/
theorem reading_of_run (hrun : Run (Step D T) s₀ tr s) (h₀ : Initial D s₀) :
    Reading Book.Follows Book.empty s.log s.book := by
  obtain ⟨es, hlog, hes⟩ := hrun.reading h₀.wellFormed (fun _ _ _ hw hs ↦ hs.move.wellFormed hw)
    fun _ _ _ hw hs ↦ hs.reading hw
  rw [h₀.log, List.nil_append] at hlog
  rw [hlog, ← h₀.book_eq]
  exact hes

/-- **The events tell the vaults.** In every reachable state the events can be read one after another,
and the vaults are, but for their beneficiaries, as in a book they lead to. As long as nobody withdrew in an
emergency there is only that one, and it is computed from the events alone. -/
theorem vaults_replayed (hrun : Run (Step D T) s₀ tr s) (h₀ : Initial D s₀) :
    Reading Book.Follows Book.empty s.log s.book ∧
      ((∀ e ∈ s.log, ¬e.IsEmergency) → s.log.foldlM Book.read Book.empty = some s.book) := by
  have hreading := reading_of_run hrun h₀
  refine ⟨hreading, fun hquiet ↦ hreading.foldlM_eq_some (fun b e b' he hfollows ↦ ?_) hquiet⟩
  cases hfollows with
  | read h => exact h
  | emergency _ _ => exact absurd trivial he

/-- The vault that settled, and the one that did not. -/
theorem vaults_replayed_sample : ∃ b,
    (sampleRun sampleSettled).log.foldlM Book.read Book.empty = some b ∧
      b.entries ⟨1, 0⟩ = some ⟨some 10, 3, 20, 200, true⟩ ∧
      b.entries ⟨1, 1⟩ = some ⟨some 10, 5, 0, 0, false⟩ ∧ b.nextId 1 = 2 := by
  have hrun : Run (Step sampleDeployment splToken) sampleState (sampleTrace sampleSettled)
      (sampleRun sampleSettled) :=
    sampleRun_run (by decide +kernel) (by decide +kernel)
  exact ⟨_, (vaults_replayed hrun sampleState_initial).2 (by decide +kernel), by decide +kernel,
    by decide +kernel, by decide +kernel⟩

/-- Users `1` and `2` open a vault each, for the same beneficiary, before the administrator pauses. -/
def sampleTwins : List Action :=
  [.call (.initializeConfig 1 1), .call (.initializeCounter 1), .call (.initializeCounter 2),
   .call (.openVault 1 10 1), .call (.openVault 2 10 1), .call (.setFullyPaused 1 true)]

/-- The owner withdraws from its vault. -/
def sampleWithdrawal (owner : Pubkey) : Action :=
  .call (.emergencyWithdrawVault
    ⟨⟨owner, 0⟩, 12, 10, 11, sampleDeployment.poolVaultAuth 10, owner⟩)

/-- **An emergency withdrawal does leave open which vault it closed**: two runs with the same events, in
each of which another vault is closed. -/
theorem emergency_ambiguous : ∃ tr tr' s s',
    Run (Step sampleDeployment splToken) sampleState tr s ∧
      Run (Step sampleDeployment splToken) sampleState tr' s' ∧ s.log = s'.log ∧
      s.book.entries ⟨1, 0⟩ ≠ s'.book.entries ⟨1, 0⟩ := by
  have hallowed : ∀ o : Pubkey, o = 1 ∨ o = 2 → ∀ a ∈ sampleTwins ++ [sampleWithdrawal o],
      a.Allowed sampleDeployment := by
    intro o ho a ha
    have hone := sampleDeployment_not_isControllerPda (k := 1) (by decide) (by decide)
    have htwo := sampleDeployment_not_isControllerPda (k := 2) (by decide) (by decide)
    simp only [sampleTwins, List.cons_append, List.nil_append, List.mem_cons,
      List.not_mem_nil, or_false] at ha
    rcases ha with rfl | rfl | rfl | rfl | rfl | rfl | rfl
    · exact ⟨hone, trivial⟩
    · exact ⟨hone, trivial⟩
    · exact ⟨htwo, trivial⟩
    · exact ⟨hone, trivial⟩
    · exact ⟨htwo, trivial⟩
    · exact ⟨hone, trivial⟩
    · rcases ho with rfl | rfl
      · exact ⟨hone, trivial⟩
      · exact ⟨htwo, trivial⟩
  exact ⟨_, _, _, _, run_of_script (hallowed 1 (.inl rfl)) (by decide +kernel),
    run_of_script (hallowed 2 (.inr rfl)) (by decide +kernel), by decide +kernel,
    by decide +kernel⟩

/-! ## The life of a vault -/

/-- The vault an event names. -/
def Event.vaultKey : Event → Option VaultKey
  | .vaultOpened owner vaultId | .collateralDeposited owner vaultId _ _
  | .otokenMinted owner vaultId _ _ | .vaultSettled owner vaultId _ _ => some ⟨owner, vaultId⟩
  | _ => none

/-- A vault of the owner is opened. -/
def Event.opensFor (o : Pubkey) : Event → Bool
  | .vaultOpened owner _ => decide (owner = o)
  | _ => false

/-- What is deposited into the vault. -/
def Event.depositedTo (k : VaultKey) : Event → ℕ
  | .collateralDeposited owner vaultId _ amount =>
    if (⟨owner, vaultId⟩ : VaultKey) = k then amount else 0
  | _ => 0

/-- What is minted against the vault. -/
def Event.mintedBy (k : VaultKey) : Event → ℕ
  | .otokenMinted owner vaultId _ amount =>
    if (⟨owner, vaultId⟩ : VaultKey) = k then amount else 0
  | _ => 0

theorem Event.depositedTo_eq_zero {k : VaultKey} {e : Event} (h : e.vaultKey ≠ some k) :
    e.depositedTo k = 0 := by
  cases e with
  | collateralDeposited owner vaultId asset amount =>
    rw [vaultKey, ne_eq, Option.some.injEq] at h
    rw [depositedTo, if_neg h]
  | _ => rfl

theorem Event.mintedBy_eq_zero {k : VaultKey} {e : Event} (h : e.vaultKey ≠ some k) :
    e.mintedBy k = 0 := by
  cases e with
  | otokenMinted owner vaultId otoken amount =>
    rw [vaultKey, ne_eq, Option.some.injEq] at h
    rw [mintedBy, if_neg h]
  | _ => rfl

/-- **What reading an event does to the book**: nothing, a new entry at the next id, or a change to an
open entry, by what the event moves. -/
theorem Book.Follows.cases {b b' : Book} {e : Event} (h : b.Follows e b') :
    (b' = b ∧ e.vaultKey = none ∧ ∀ o, e.opensFor o = false) ∨
    (∃ o, e = .vaultOpened o (b.nextId o) ∧ b.entries ⟨o, b.nextId o⟩ = none ∧
      b' = { b.write ⟨o, b.nextId o⟩ .fresh with
        nextId := Function.update b.nextId o (b.nextId o + 1) }) ∨
    ∃ k x x', b.openEntry k = some x ∧ b' = b.write k x' ∧
      (∀ k', e.vaultKey = some k' → k' = k) ∧ (∀ o, e.opensFor o = false) ∧
      x'.collateral = x.collateral + e.depositedTo k ∧ x'.short = x.short + e.mintedBy k := by
  cases h with
  | @emergency k x _ h =>
    exact .inr (.inr ⟨k, x, _, h, rfl, by simp [Event.vaultKey], fun _ ↦ rfl, rfl, rfl⟩)
  | read h =>
    cases e with
    | vaultOpened o id =>
      obtain ⟨⟨rfl, hnone⟩, hb⟩ := Option.ite_none_right_eq_some.mp h
      exact .inr (.inl ⟨o, rfl, hnone, (Option.some.inj hb).symm⟩)
    | collateralDeposited o id asset n =>
      obtain ⟨x, hx, h⟩ := Option.bind_eq_some_iff.mp h
      obtain ⟨-, hb⟩ := Option.ite_none_right_eq_some.mp h
      exact .inr (.inr ⟨⟨o, id⟩, x, _, hx, (Option.some.inj hb).symm, by simp [Event.vaultKey],
        fun _ ↦ rfl, by simp [Event.depositedTo], rfl⟩)
    | otokenMinted o id otoken n =>
      obtain ⟨x, hx, h⟩ := Option.bind_eq_some_iff.mp h
      obtain ⟨-, hb⟩ := Option.ite_none_right_eq_some.mp h
      exact .inr (.inr ⟨⟨o, id⟩, x, _, hx, (Option.some.inj hb).symm, by simp [Event.vaultKey],
        fun _ ↦ rfl, rfl, by simp [Event.mintedBy]⟩)
    | vaultSettled o id returned payout =>
      obtain ⟨x, hx, h⟩ := Option.bind_eq_some_iff.mp h
      obtain ⟨-, hb⟩ := Option.ite_none_right_eq_some.mp h
      exact .inr (.inr ⟨⟨o, id⟩, x, _, hx, (Option.some.inj hb).symm, by simp [Event.vaultKey],
        fun _ ↦ rfl, rfl, rfl⟩)
    | emergencyWithdraw _ _ _ => cases h
    | controllerInitialized _ | redeemed _ _ _ _ | systemPartiallyPaused _ | systemFullyPaused _ =>
      exact .inl ⟨(Option.some.inj h).symm, rfl, fun _ ↦ rfl⟩

/-- The book sums up the events. -/
structure Book.Records (b : Book) (es : List Event) : Prop where
  nextId : ∀ o, b.nextId o = es.countP (Event.opensFor o)
  entry : ∀ k x, b.entries k = some x → x.collateral = (es.map (Event.depositedTo k)).sum ∧
    x.short = (es.map (Event.mintedBy k)).sum ∧ .vaultOpened k.owner k.vaultId ∈ es
  absent : ∀ k, b.entries k = none → ∀ e ∈ es, e.vaultKey ≠ some k

theorem Book.records_empty : Book.empty.Records [] :=
  ⟨fun _ ↦ rfl, fun _ _ h ↦ (by cases h), fun _ _ ↦ (by simp)⟩

theorem Event.sum_eq_zero {f : Event → ℕ} {k : VaultKey} {es : List Event}
    (hf : ∀ {e : Event}, e.vaultKey ≠ some k → f e = 0) (h : ∀ e ∈ es, e.vaultKey ≠ some k) :
    (es.map f).sum = 0 := by
  rw [List.sum_eq_zero_iff]
  intro n hn
  obtain ⟨e, he, rfl⟩ := List.mem_map.mp hn
  exact hf (h e he)

theorem Book.Records.sums_eq_zero {b : Book} {es : List Event} (h : b.Records es) {k : VaultKey}
    (hk : b.entries k = none) : (es.map (Event.depositedTo k)).sum = 0 ∧
      (es.map (Event.mintedBy k)).sum = 0 := by
  have habsent := h.absent k hk
  exact ⟨Event.sum_eq_zero Event.depositedTo_eq_zero habsent,
    Event.sum_eq_zero Event.mintedBy_eq_zero habsent⟩

theorem Book.Records.follows {b b' : Book} {es : List Event} {e : Event} (h : b.Records es)
    (hfollows : b.Follows e b') : b'.Records (es ++ [e]) := by
  -- an entry the event does not name is summed up as before
  have hother : ∀ k x, e.vaultKey ≠ some k → b.entries k = some x →
      x.collateral = ((es ++ [e]).map (Event.depositedTo k)).sum ∧
        x.short = ((es ++ [e]).map (Event.mintedBy k)).sum ∧
        .vaultOpened k.owner k.vaultId ∈ es ++ [e] := by
    intro k x hne hx
    obtain ⟨hc, hs, hmem⟩ := h.entry k x hx
    refine ⟨?_, ?_, List.mem_append_left _ hmem⟩
    · simp [Event.depositedTo_eq_zero hne, hc]
    · simp [Event.mintedBy_eq_zero hne, hs]
  have habsent : ∀ k, e.vaultKey ≠ some k → b.entries k = none →
      ∀ f ∈ es ++ [e], f.vaultKey ≠ some k := by
    intro k hne hk f hf
    rcases List.mem_append.mp hf with hf | hf
    · exact h.absent k hk f hf
    · rw [List.mem_singleton.mp hf]
      exact hne
  have hcount : (∀ o, e.opensFor o = false) →
      ∀ o, b.nextId o = (es ++ [e]).countP (Event.opensFor o) := by
    intro hopens o
    rw [h.nextId, List.countP_append, List.countP_singleton, hopens o]
    rfl
  rcases hfollows.cases with ⟨rfl, hkey, hopens⟩ | ⟨o, rfl, hnone, rfl⟩ |
    ⟨k, x, x', hx, rfl, hkey, hopens, hc, hs⟩
  · refine ⟨hcount hopens, fun k x hx ↦ hother k x ?_ hx, fun k hk ↦ habsent k ?_ hk⟩
    · rw [hkey]
      exact Option.some_ne_none k |>.symm
    · rw [hkey]
      exact Option.some_ne_none k |>.symm
  · refine ⟨fun o' ↦ ?_, fun k x hx ↦ ?_, fun k hk ↦ ?_⟩
    · rw [List.countP_append, ← h.nextId, List.countP_singleton]
      by_cases ho : o' = o
      · subst ho
        simp [Event.opensFor]
      · simp [Event.opensFor, ho, Ne.symm ho]
    · by_cases hk : k = ⟨o, b.nextId o⟩
      · subst hk
        obtain ⟨hd, hm⟩ := h.sums_eq_zero hnone
        simp only [write, Function.update_self, Option.some.injEq] at hx
        subst hx
        simp [Entry.fresh, hd, hm, Event.depositedTo, Event.mintedBy]
      · simp only [write, Function.update_of_ne hk] at hx
        exact hother k x (by simp [Event.vaultKey, Ne.symm hk]) hx
    · by_cases hk' : k = ⟨o, b.nextId o⟩
      · subst hk'
        simp [write] at hk
      · simp only [write, Function.update_of_ne hk'] at hk
        exact habsent k (by simp [Event.vaultKey, Ne.symm hk']) hk
  · obtain ⟨hentry, -⟩ := openEntry_eq_some.mp hx
    have hne : ∀ k', k' ≠ k → e.vaultKey ≠ some k' := fun k' hk' he ↦ hk' (hkey k' he)
    refine ⟨hcount hopens, fun k' y hy ↦ ?_, fun k' hk' ↦ ?_⟩
    · by_cases hk' : k' = k
      · subst hk'
        obtain ⟨hc₀, hs₀, hmem⟩ := h.entry k' x hentry
        simp only [write, Function.update_self, Option.some.injEq] at hy
        subst hy
        refine ⟨?_, ?_, List.mem_append_left _ hmem⟩
        · simp [hc, hc₀]
        · simp [hs, hs₀]
      · simp only [write, Function.update_of_ne hk'] at hy
        exact hother k' y (hne k' hk') hy
    · by_cases hkk : k' = k
      · subst hkk
        simp [write] at hk'
      · simp only [write, Function.update_of_ne hkk] at hk'
        exact habsent k' (hne k' hkk) hk'

theorem Book.Follows.closed {b b' : Book} {e : Event} (h : b.Follows e b') {k : VaultKey}
    (hk : ∃ x, b.entries k = some x ∧ x.closed = true) :
    (∃ x, b'.entries k = some x ∧ x.closed = true) ∧ ¬e.vaultKey = some k := by
  obtain ⟨x, hx, hclosed⟩ := hk
  rcases h.cases with ⟨rfl, hkey, -⟩ | ⟨o, rfl, hnone, rfl⟩ | ⟨k', y, y', hy, rfl, hkey, -⟩
  · exact ⟨⟨x, hx, hclosed⟩, by simp [hkey]⟩
  · have hne : k ≠ ⟨o, b.nextId o⟩ := by
      rintro rfl
      rw [hnone] at hx
      cases hx
    refine ⟨⟨x, ?_, hclosed⟩, by simp [Event.vaultKey, Ne.symm hne]⟩
    simp only [write, Function.update_of_ne hne, hx]
  · obtain ⟨hentry, hopen⟩ := openEntry_eq_some.mp hy
    have hne : k ≠ k' := by
      rintro rfl
      rw [hentry, Option.some.injEq] at hx
      rw [hx, hclosed] at hopen
      cases hopen
    refine ⟨⟨x, ?_, hclosed⟩, fun he ↦ hne (hkey k he)⟩
    simp only [write, Function.update_of_ne hne, hx]

/-- **The life of a vault, in events.** Wherever an event stands among those of a run: the vaults of an
owner are opened with the ids `0, 1, 2, …`; nothing names a vault before it is opened; what a
settlement returns and reserves is all that was deposited before, from a vault that has minted; and
nothing names the vault afterwards. -/
theorem vault_life (hrun : Run (Step D T) s₀ tr s) (h₀ : Initial D s₀) {as bs : List Event}
    {e : Event} (hlog : s.log = as ++ e :: bs) :
    (∀ o id, e = .vaultOpened o id →
      id = as.countP (Event.opensFor o) ∧ ∀ f ∈ as, f.vaultKey ≠ some ⟨o, id⟩) ∧
    (∀ k, e.vaultKey = some k → e = .vaultOpened k.owner k.vaultId ∨
      .vaultOpened k.owner k.vaultId ∈ as) ∧
    ∀ o id returned payout, e = .vaultSettled o id returned payout →
      returned + payout = (as.map (Event.depositedTo ⟨o, id⟩)).sum ∧
      0 < (as.map (Event.mintedBy ⟨o, id⟩)).sum ∧ ∀ f ∈ bs, f.vaultKey ≠ some ⟨o, id⟩ := by
  have hreading := reading_of_run hrun h₀
  rw [hlog] at hreading
  obtain ⟨b, b', has, he, hbs⟩ := hreading.split_cons
  have hrecords : b.Records as := has.history Book.records_empty fun _ _ _ _ h hf ↦ h.follows hf
  refine ⟨?_, ?_, ?_⟩
  · rintro o id rfl
    rcases he.cases with ⟨-, hkey, -⟩ | ⟨o', heq, hnone, -⟩ | ⟨_, _, _, -, -, -, hopens, -⟩
    · cases hkey
    · obtain ⟨rfl, rfl⟩ := Event.vaultOpened.inj heq
      exact ⟨hrecords.nextId o, hrecords.absent _ hnone⟩
    · have := hopens o
      simp [Event.opensFor] at this
  · intro k hkey
    rcases he.cases with ⟨-, hnone, -⟩ | ⟨o, rfl, -, -⟩ | ⟨k', x, x', hx, -, hsame, -⟩
    · rw [hnone] at hkey
      cases hkey
    · obtain rfl := Option.some.inj hkey
      exact .inl rfl
    · obtain rfl := hsame k hkey
      exact .inr (hrecords.entry k x (Book.openEntry_eq_some.mp hx).1).2.2
  · rintro o id returned payout rfl
    have hread : b.read (.vaultSettled o id returned payout) = some b' := by
      cases he with
      | read h => exact h
    obtain ⟨x, hx, hread⟩ := Option.bind_eq_some_iff.mp hread
    obtain ⟨⟨hshort, hsum⟩, hb⟩ := Option.ite_none_right_eq_some.mp hread
    obtain rfl := Option.some.inj hb
    obtain ⟨hc, hs, -⟩ := hrecords.entry _ x (Book.openEntry_eq_some.mp hx).1
    refine ⟨hsum.trans hc, hs ▸ hshort, ?_⟩
    refine (hbs.never (Q := fun f ↦ f.vaultKey = some ⟨o, id⟩)
      (fun _ _ _ hk hf ↦ hf.closed hk) ?_).2
    exact ⟨_, Function.update_self .., rfl⟩

theorem vault_life_sample : ∃ as bs,
    (sampleRun sampleSettled).log = as ++ .vaultSettled 1 0 1 2 :: bs ∧
      1 + 2 = (as.map (Event.depositedTo ⟨1, 0⟩)).sum ∧
      ∀ f ∈ bs, f.vaultKey ≠ some ⟨1, 0⟩ := by
  have hrun : Run (Step sampleDeployment splToken) sampleState (sampleTrace sampleSettled)
      (sampleRun sampleSettled) :=
    sampleRun_run (by decide +kernel) (by decide +kernel)
  have hlog : (sampleRun sampleSettled).log =
      [.controllerInitialized 1, .vaultOpened 1 0, .vaultOpened 1 1, .collateralDeposited 1 0 10 3,
        .collateralDeposited 1 1 10 5, .otokenMinted 1 0 20 200] ++
      .vaultSettled 1 0 1 2 :: [.redeemed 20 1 100 1] := by decide +kernel
  obtain ⟨-, -, hsettled⟩ := vault_life hrun sampleState_initial hlog
  obtain ⟨hsum, -, hafter⟩ := hsettled 1 0 1 2 rfl
  exact ⟨_, _, hlog, hsum, hafter⟩

end Controller

end OptionsProtocol
