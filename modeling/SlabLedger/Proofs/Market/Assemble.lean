import SlabLedger.Market.Book
import SlabLedger.Market.Settlement
import SlabLedger.Proofs.Decoder

/-!
# Joining leaves with their slots

A side of a book and the entries of a settlement log are assembled the same way: every leaf of
a tree, in table order, is joined with the record of the slot it names in a slot vector. The
join succeeds exactly when every leaf names a slot that the vector has. It then gives one output
per leaf, in table order, made from the leaf and its record; otherwise it fails at the first
leaf, in table order, whose slot is missing. A book joins its bid side before its ask side, and
a log keeps its links.

`joinLeaf` is the join of one leaf with the record and the fault as parameters; the sides of a
book and the entries of a log are lists of it (`assembleSide_eq`, `LogSlab.entries_eq`), so the
law is proved once (`mapM_joinLeaf_eq_ok_iff`, `exists_mapM_joinLeaf_iff`,
`mapM_joinLeaf_eq_error`) and `assemble_joins_leaves_to_slots` reads it off for both accounts.
-/

namespace SlabLedger

/-- The order a leaf and its slot's record make: amount and expiry from the record, owner and key
from the leaf, the price from the upper 64 bits of the key and the id written from the key. -/
def Leaf.order (side : Side) (l : Leaf) (s : OrderSlot) : Order where
  side := side
  orderId := l.key.orderId
  key := l.key
  price := l.key.price
  owner := l.owner
  amount := s.amount
  expiry := s.expiry

/-- The entry a leaf and its slot's balances make: the owner from the leaf, the balances and
the time of their update from the record. -/
def Leaf.entry (l : Leaf) (b : BalanceSlot) : Entry where
  owner := l.owner
  mktBalance := b.mktBalance
  prcBalance := b.prcBalance
  updatedAt := b.updatedAt

/-! ## The join of one leaf -/

section Join

variable {ρ γ : Type} (records : Array ρ) (make : Leaf → ρ → γ) (missing : Leaf → Fault)

/-- A leaf joined with the record of its slot, or the fault of a slot the records lack. -/
def joinLeaf (l : Leaf) : Except Fault γ :=
  match records[l.slot.toNat]? with
  | some r => .ok (make l r)
  | none => .error (missing l)

variable {records make missing}

theorem joinLeaf_eq_ok_iff {l : Leaf} {o : γ} :
    joinLeaf records make missing l = .ok o ↔
      ∃ r, records[l.slot.toNat]? = some r ∧ o = make l r := by
  unfold joinLeaf
  cases records[l.slot.toNat]? with
  | none => simp
  | some r => simp [eq_comm]

theorem exists_joinLeaf_eq_ok_iff {l : Leaf} :
    (∃ o, joinLeaf records make missing l = .ok o) ↔ l.slot.toNat < records.size := by
  unfold joinLeaf
  by_cases hl : l.slot.toNat < records.size
  · simp [hl]
  · simp [hl]

theorem joinLeaf_eq_error {l : Leaf} (hl : records.size ≤ l.slot.toNat) :
    joinLeaf records make missing l = .error (missing l) := by
  unfold joinLeaf
  rw [Array.getElem?_eq_none hl]

/-! ## The join of a list of leaves -/

/-- The join succeeds with one output per leaf, in order, each made from its leaf and the
record of the leaf's slot. -/
theorem mapM_joinLeaf_eq_ok_iff {leaves : List Leaf} {os : List γ} :
    leaves.mapM (joinLeaf records make missing) = .ok os ↔
      List.Forall₂ (fun l o => ∃ r, records[l.slot.toNat]? = some r ∧ o = make l r)
        leaves os := by
  rw [mapM_eq_ok_iff_forall₂]
  simp only [joinLeaf_eq_ok_iff]

/-- The join succeeds exactly when every leaf names a slot of the records. -/
theorem exists_mapM_joinLeaf_iff {leaves : List Leaf} :
    (∃ os, leaves.mapM (joinLeaf records make missing) = .ok os) ↔
      ∀ l ∈ leaves, l.slot.toNat < records.size := by
  rw [exists_mapM_eq_ok_iff]
  exact forall₂_congr fun _ _ => exists_joinLeaf_eq_ok_iff

/-- The join fails with the fault of the first leaf whose slot the records lack. -/
theorem mapM_joinLeaf_eq_error {pre post : List Leaf} {l : Leaf}
    (hpre : ∀ x ∈ pre, x.slot.toNat < records.size) (hl : records.size ≤ l.slot.toNat) :
    (pre ++ l :: post).mapM (joinLeaf records make missing) = .error (missing l) :=
  mapM_eq_error_of_first (fun x hx => exists_joinLeaf_eq_ok_iff.2 (hpre x hx))
    (joinLeaf_eq_error hl)

end Join

/-! ## Books and logs -/

/-- A side of a book joins each leaf with its order slot. -/
theorem assembleSide_eq (side : Side) (tree : Tree) (orders : SlotVector OrderSlot) :
    assembleSide side tree orders = tree.leaves.mapM
      (joinLeaf orders.records (Leaf.order side) fun l =>
        .layout (.orderSlotMissing side l.slot orders.size)) := by
  unfold assembleSide
  congr 1
  funext l
  unfold joinLeaf SlotVector.get?
  cases orders.records[l.slot.toNat]? <;> rfl

section Side

variable {side : Side} {tree : Tree} {orders : SlotVector OrderSlot}

/-- A side assembles exactly when every leaf names one of the order slots. -/
theorem exists_assembleSide_iff :
    (∃ os, assembleSide side tree orders = .ok os) ↔
      ∀ l ∈ tree.leaves, l.slot.toNat < orders.size := by
  rw [assembleSide_eq]
  exact exists_mapM_joinLeaf_iff

theorem assembleSide_eq_ok_iff {os : List Order} :
    assembleSide side tree orders = .ok os ↔
      List.Forall₂
        (fun l o => ∃ r, orders.records[l.slot.toNat]? = some r ∧ o = l.order side r)
        tree.leaves os := by
  rw [assembleSide_eq]
  exact mapM_joinLeaf_eq_ok_iff

/-- A side fails at the first leaf whose order slot is missing. -/
theorem assembleSide_eq_error {pre post : List Leaf} {l : Leaf}
    (hleaves : tree.leaves = pre ++ l :: post) (hpre : ∀ x ∈ pre, x.slot.toNat < orders.size)
    (hl : orders.size ≤ l.slot.toNat) :
    assembleSide side tree orders =
      .error (.layout (.orderSlotMissing side l.slot orders.size)) := by
  rw [assembleSide_eq, hleaves]
  exact mapM_joinLeaf_eq_error hpre hl

end Side

namespace BookSlab

variable {s : BookSlab}

theorem assemble_eq_ok_iff {b : Book} :
    s.assemble = .ok b ↔
      assembleSide .bid s.bidTree s.bidOrders = .ok b.bids ∧
        assembleSide .ask s.askTree s.askOrders = .ok b.asks := by
  unfold assemble
  cases assembleSide .bid s.bidTree s.bidOrders with
  | error e => simp
  | ok bids =>
    cases assembleSide .ask s.askTree s.askOrders with
    | error e => simp
    | ok asks =>
      obtain ⟨bids', asks'⟩ := b
      simp only [Except.ok_bind, Except.ok.injEq]
      exact ⟨fun h => by cases h; exact ⟨rfl, rfl⟩,
        fun ⟨h₁, h₂⟩ => by rw [h₁, h₂]; rfl⟩

/-- The bid side is joined first: its fault is the book's. -/
theorem assemble_of_bids_error {e : Fault}
    (h : assembleSide .bid s.bidTree s.bidOrders = .error e) : s.assemble = .error e := by
  rw [assemble, h]
  rfl

theorem assemble_of_asks_error {bids : List Order} {e : Fault}
    (hbids : assembleSide .bid s.bidTree s.bidOrders = .ok bids)
    (h : assembleSide .ask s.askTree s.askOrders = .error e) : s.assemble = .error e := by
  rw [assemble, hbids, Except.ok_bind, h]
  rfl

end BookSlab

namespace LogSlab

variable {s : LogSlab}

/-- The entries of a log join each leaf with its balance slot. -/
theorem entries_eq (s : LogSlab) :
    s.entries = s.tree.leaves.mapM
      (joinLeaf s.balances.records Leaf.entry fun l =>
        .layout (.balanceSlotMissing l.slot s.balances.size)) := by
  unfold entries
  congr 1
  funext l
  unfold joinLeaf SlotVector.get?
  cases s.balances.records[l.slot.toNat]? <;> rfl

/-- A log's entries are read exactly when every leaf names one of the balance slots. -/
theorem exists_entries_iff :
    (∃ es, s.entries = .ok es) ↔ ∀ l ∈ s.tree.leaves, l.slot.toNat < s.balances.size := by
  rw [entries_eq]
  exact exists_mapM_joinLeaf_iff

theorem entries_eq_ok_iff {es : List Entry} :
    s.entries = .ok es ↔
      List.Forall₂
        (fun l e => ∃ r, s.balances.records[l.slot.toNat]? = some r ∧ e = l.entry r)
        s.tree.leaves es := by
  rw [entries_eq]
  exact mapM_joinLeaf_eq_ok_iff

/-- The entries fail at the first leaf whose balance slot is missing. -/
theorem entries_eq_error {pre post : List Leaf} {l : Leaf}
    (hleaves : s.tree.leaves = pre ++ l :: post)
    (hpre : ∀ x ∈ pre, x.slot.toNat < s.balances.size) (hl : s.balances.size ≤ l.slot.toNat) :
    s.entries = .error (.layout (.balanceSlotMissing l.slot s.balances.size)) := by
  rw [entries_eq, hleaves]
  exact mapM_joinLeaf_eq_error hpre hl

theorem assemble_eq_ok_iff {g : SettlementLog} :
    s.assemble = .ok g ↔
      g.market = s.market ∧ g.prev = s.prev ∧ g.next = s.next ∧
        s.entries = .ok g.entries := by
  unfold assemble
  cases s.entries with
  | error e => simp
  | ok entries =>
    obtain ⟨market, prev, next, entries'⟩ := g
    simp only [Except.ok_bind, Except.ok.injEq]
    constructor
    · intro h
      cases h
      exact ⟨rfl, rfl, rfl, rfl⟩
    · rintro ⟨rfl, rfl, rfl, rfl⟩
      rfl

theorem assemble_of_entries_error {e : Fault} (h : s.entries = .error e) :
    s.assemble = .error e := by
  rw [assemble, h]
  rfl

end LogSlab

/-- Assembling joins every leaf with the record of the slot it names. A book assembles exactly
when every bid leaf names one of the bid order slots and every ask leaf one of the ask order
slots; each side then has one order per leaf of its tree, in table order, with amount and expiry
from the slot, owner and key from the leaf, the price from the key's upper 64 bits and the id
written from the key. Otherwise the fault names the first bid leaf, in table order, whose slot
is missing, or, when every bid leaf has its slot, the first such ask leaf. A settlement log
assembles by the same law from its tree and its balances, and keeps its market and its links. -/
theorem assemble_joins_leaves_to_slots (s : BookSlab) (log : LogSlab) :
    ((∃ b, s.assemble = .ok b) ↔
      (∀ l ∈ s.bidTree.leaves, l.slot.toNat < s.bidOrders.size) ∧
        ∀ l ∈ s.askTree.leaves, l.slot.toNat < s.askOrders.size) ∧
    (∀ b, s.assemble = .ok b →
      List.Forall₂ (fun l o => ∃ r, s.bidOrders.records[l.slot.toNat]? = some r ∧
        o = l.order .bid r) s.bidTree.leaves b.bids ∧
      List.Forall₂ (fun l o => ∃ r, s.askOrders.records[l.slot.toNat]? = some r ∧
        o = l.order .ask r) s.askTree.leaves b.asks) ∧
    (∀ pre l post, s.bidTree.leaves = pre ++ l :: post →
      (∀ x ∈ pre, x.slot.toNat < s.bidOrders.size) → s.bidOrders.size ≤ l.slot.toNat →
      s.assemble = .error (.layout (.orderSlotMissing .bid l.slot s.bidOrders.size))) ∧
    (∀ pre l post, (∀ x ∈ s.bidTree.leaves, x.slot.toNat < s.bidOrders.size) →
      s.askTree.leaves = pre ++ l :: post →
      (∀ x ∈ pre, x.slot.toNat < s.askOrders.size) → s.askOrders.size ≤ l.slot.toNat →
      s.assemble = .error (.layout (.orderSlotMissing .ask l.slot s.askOrders.size))) ∧
    ((∃ g, log.assemble = .ok g) ↔
      ∀ l ∈ log.tree.leaves, l.slot.toNat < log.balances.size) ∧
    (∀ g, log.assemble = .ok g →
      g.market = log.market ∧ g.prev = log.prev ∧ g.next = log.next ∧
      List.Forall₂ (fun l e => ∃ r, log.balances.records[l.slot.toNat]? = some r ∧
        e = l.entry r) log.tree.leaves g.entries) ∧
    (∀ pre l post, log.tree.leaves = pre ++ l :: post →
      (∀ x ∈ pre, x.slot.toNat < log.balances.size) → log.balances.size ≤ l.slot.toNat →
      log.assemble = .error (.layout (.balanceSlotMissing l.slot log.balances.size))) := by
  refine ⟨?bookOk, ?bookJoin, ?bidFault, ?askFault, ?logOk, ?logJoin, ?logFault⟩
  case bookOk =>
    constructor
    · rintro ⟨b, hb⟩
      obtain ⟨hbids, hasks⟩ := BookSlab.assemble_eq_ok_iff.1 hb
      exact ⟨exists_assembleSide_iff.1 ⟨_, hbids⟩, exists_assembleSide_iff.1 ⟨_, hasks⟩⟩
    · rintro ⟨hbids, hasks⟩
      obtain ⟨bids, hb⟩ := exists_assembleSide_iff.2 hbids
      obtain ⟨asks, ha⟩ := exists_assembleSide_iff.2 hasks
      exact ⟨⟨bids, asks⟩, BookSlab.assemble_eq_ok_iff.2 ⟨hb, ha⟩⟩
  case bookJoin =>
    intro b hb
    obtain ⟨hbids, hasks⟩ := BookSlab.assemble_eq_ok_iff.1 hb
    exact ⟨assembleSide_eq_ok_iff.1 hbids, assembleSide_eq_ok_iff.1 hasks⟩
  case bidFault =>
    intro pre l post hleaves hpre hl
    exact BookSlab.assemble_of_bids_error (assembleSide_eq_error hleaves hpre hl)
  case askFault =>
    intro pre l post hbids hleaves hpre hl
    obtain ⟨bids, hb⟩ := exists_assembleSide_iff.2 hbids
    exact BookSlab.assemble_of_asks_error hb (assembleSide_eq_error hleaves hpre hl)
  case logOk =>
    constructor
    · rintro ⟨g, hg⟩
      obtain ⟨-, -, -, hentries⟩ := LogSlab.assemble_eq_ok_iff.1 hg
      exact LogSlab.exists_entries_iff.1 ⟨_, hentries⟩
    · intro hslots
      obtain ⟨entries, he⟩ := LogSlab.exists_entries_iff.2 hslots
      exact ⟨⟨log.market, log.prev, log.next, entries⟩,
        LogSlab.assemble_eq_ok_iff.2 ⟨rfl, rfl, rfl, he⟩⟩
  case logJoin =>
    intro g hg
    obtain ⟨hmarket, hprev, hnext, hentries⟩ := LogSlab.assemble_eq_ok_iff.1 hg
    exact ⟨hmarket, hprev, hnext, LogSlab.entries_eq_ok_iff.1 hentries⟩
  case logFault =>
    intro pre l post hleaves hpre hl
    exact LogSlab.assemble_of_entries_error (LogSlab.entries_eq_error hleaves hpre hl)

end SlabLedger
