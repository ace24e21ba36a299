import Mathlib.Data.List.Induction
import SlabLedger.Proofs.Market.Assemble
import SlabLedger.Proofs.Text.OrderId

/-!
# Sorted books and best orders

Sorting a book orders its bids by price from the highest, its asks by price from the lowest,
and equal prices by order id; sorting is stable, so orders that compare equal keep the order of
the node table. The best bid is the last order of the highest price, the best ask the first
order of the lowest.

An assembled book is more than a list of orders: every order carries the price that its key's
upper 64 bits give and the id written from its key (`keyed_of_assemble`). Order ids compare like
keys, and the price is the high part of the key, so comparing price and then id is comparing
keys (`askBefore_eq_of_keyed`), and sorting the asks is sorting them by key. `Book.SortsByKey`
lists what follows for a book, and `assembled_book_sorts_by_key` proves it of every assembled
book.
-/

namespace SlabLedger

/-! ## Stable sorting -/

section Stable

variable {α : Type}

/-- Sorting by one comparison or another gives the same list when the two agree on its
elements. -/
theorem mergeSort_congr {l : List α} {r s : α → α → Bool}
    (h : ∀ a ∈ l, ∀ b ∈ l, r a b = s a b) : l.mergeSort r = l.mergeSort s := by
  simpa using List.map_mergeSort (f := id) h

/-- Sorting is stable: the elements of a class that the order ties keep the order they had. -/
theorem filter_mergeSort_of_tied {le : α → α → Bool}
    (trans : ∀ a b c, le a b → le b c → le a c)
    (total : ∀ a b, le a b || le b a) {p : α → Bool} {l : List α}
    (htied : ∀ a ∈ l, ∀ b ∈ l, p a → p b → le a b) :
    (l.mergeSort le).filter p = l.filter p := by
  have hclass : (l.filter p).Pairwise fun a b => le a b := by
    apply List.pairwise_of_forall_mem_list
    intro a ha b hb
    rw [List.mem_filter] at ha hb
    exact htied a ha.1 b hb.1 ha.2 hb.2
  have hsub : List.Sublist (l.filter p) ((l.mergeSort le).filter p) := by
    simpa using (List.sublist_mergeSort trans total hclass List.filter_sublist).filter p
  exact (hsub.eq_of_length ((List.mergeSort_perm l le).filter p).length_eq.symm).symm

end Stable

/-! ## Running best -/

section Best

variable {α : Type} (replace : α → α → Prop) [DecidableRel replace]

/-- One step of a running best: the first candidate is taken, and a later one takes the place
of the best so far when `replace best candidate` holds. -/
def bestStep (best : Option α) (o : α) : Option α :=
  match best with
  | some x => if replace x o then some o else some x
  | none => some o

theorem foldl_bestStep_some (x : α) (l : List α) :
    ∃ o, l.foldl (bestStep replace) (some x) = some o := by
  induction l generalizing x with
  | nil => exact ⟨x, rfl⟩
  | cons y l ih =>
    rw [List.foldl_cons, bestStep]
    split
    · exact ih y
    · exact ih x

theorem foldl_bestStep_eq_none_iff {l : List α} :
    l.foldl (bestStep replace) none = none ↔ l = [] := by
  cases l with
  | nil => simp
  | cons y l =>
    obtain ⟨o, ho⟩ := foldl_bestStep_some replace y l
    simp [bestStep, ho]

/-- The running best is an element that every earlier element gives way to and no later one
takes the place of, when giving way passes along a chain and past an element that did not. -/
theorem foldl_bestStep_spec (htrans : ∀ a b c, replace a b → replace b c → replace a c)
    (hpast : ∀ a b c, ¬replace a b → replace a c → replace b c) {l : List α} {o : α}
    (h : l.foldl (bestStep replace) none = some o) :
    ∃ pre post, l = pre ++ o :: post ∧ (∀ y ∈ pre, replace y o) ∧
      ∀ y ∈ post, ¬replace o y := by
  induction l using List.reverseRecOn generalizing o with
  | nil => cases h
  | append_singleton l z ih =>
    rw [List.foldl_append, List.foldl_cons, List.foldl_nil] at h
    cases hbest : l.foldl (bestStep replace) none with
    | none =>
      rw [(foldl_bestStep_eq_none_iff replace).1 hbest]
      rw [hbest, bestStep] at h
      cases h
      exact ⟨[], [], rfl, by simp, by simp⟩
    | some x =>
      obtain ⟨pre, post, rfl, hpre, hpost⟩ := ih hbest
      rw [hbest, bestStep] at h
      by_cases hxz : replace x z
      · rw [if_pos hxz] at h
        cases h
        refine ⟨pre ++ x :: post, [], by simp, fun y hy => ?_, by simp⟩
        rcases List.mem_append.1 hy with hy | hy
        · exact htrans y x z (hpre y hy) hxz
        · rcases List.mem_cons.1 hy with rfl | hy
          · exact hxz
          · exact hpast x y z (hpost y hy) hxz
      · rw [if_neg hxz] at h
        cases h
        refine ⟨pre, post ++ [z], by simp, hpre, fun y hy => ?_⟩
        rcases List.mem_append.1 hy with hy | hy
        · exact hpost y hy
        · rw [List.mem_singleton.1 hy]
          exact hxz

end Best

/-! ## Orders that carry their keys -/

/-- An order whose price is the upper 64 bits of its key and whose id is written from its key. -/
def Order.Keyed (o : Order) : Prop :=
  o.price = o.key.price ∧ o.orderId = o.key.orderId

theorem Leaf.order_keyed (side : Side) (l : Leaf) (s : OrderSlot) : (l.order side s).Keyed :=
  ⟨rfl, rfl⟩

theorem Key.orderId_le_iff (a b : Key) : a.orderId ≤ b.orderId ↔ a.value ≤ b.value := by
  rw [← String.not_lt, Key.orderId_lt_iff]
  omega

theorem keyed_of_mem_assembleSide {side : Side} {tree : Tree} {orders : SlotVector OrderSlot}
    {os : List Order} (h : assembleSide side tree orders = .ok os) : ∀ o ∈ os, o.Keyed := by
  rw [assembleSide_eq_ok_iff] at h
  intro o ho
  generalize tree.leaves = leaves at h
  induction h with
  | nil => cases ho
  | cons hjoin _ ih =>
    rcases List.mem_cons.1 ho with rfl | ho
    · obtain ⟨r, -, rfl⟩ := hjoin
      exact Leaf.order_keyed _ _ _
    · exact ih ho

/-- Every order of an assembled book carries its key's price and id. -/
theorem keyed_of_assemble {s : BookSlab} {b : Book} (h : s.assemble = .ok b) :
    (∀ o ∈ b.bids, o.Keyed) ∧ ∀ o ∈ b.asks, o.Keyed := by
  obtain ⟨hbids, hasks⟩ := BookSlab.assemble_eq_ok_iff.1 h
  exact ⟨keyed_of_mem_assembleSide hbids, keyed_of_mem_assembleSide hasks⟩

namespace Book

variable {x y : Order}

/-- Between orders that carry their keys, an ask comes first exactly when its key is not the
larger: the price is the key's high part, and ids compare like keys. -/
theorem askBefore_eq_of_keyed (hx : x.Keyed) (hy : y.Keyed) :
    askBefore x y = decide (x.key.value ≤ y.key.value) := by
  have hid : x.orderId ≤ y.orderId ↔ x.key.value ≤ y.key.value := by
    rw [hx.2, hy.2, Key.orderId_le_iff]
  rw [Bool.eq_iff_iff]
  simp only [askBefore, Bool.or_eq_true, Bool.and_eq_true, beq_iff_eq, decide_eq_true_eq, hid,
    hx.1, hy.1, Key.price]
  constructor
  · rintro (hlt | ⟨-, hle⟩)
    · exact Nat.le_of_lt (Nat.lt_of_div_lt_div hlt)
    · exact hle
  · intro hle
    rcases Nat.lt_or_eq_of_le (Nat.div_le_div_right (c := Nat.pow 2 64) hle) with hlt | heq
    · exact .inl hlt
    · exact .inr ⟨heq, hle⟩

/-- Between orders that carry their keys, a bid comes first at a higher price, or at the same
price with a key that is not the larger. -/
theorem bidBefore_eq_of_keyed (hx : x.Keyed) (hy : y.Keyed) :
    bidBefore x y =
      decide (y.price < x.price ∨ x.price = y.price ∧ x.key.value ≤ y.key.value) := by
  have hid : x.orderId ≤ y.orderId ↔ x.key.value ≤ y.key.value := by
    rw [hx.2, hy.2, Key.orderId_le_iff]
  rw [Bool.eq_iff_iff]
  simp only [bidBefore, Bool.or_eq_true, Bool.and_eq_true, beq_iff_eq, decide_eq_true_eq, hid]

/-- The order of bids on keys: the higher price first, then the smaller key. -/
def bidKeyBefore (x y : Order) : Bool :=
  decide (y.price < x.price ∨ x.price = y.price ∧ x.key.value ≤ y.key.value)

theorem bidKeyBefore_trans (x y z : Order) :
    bidKeyBefore x y → bidKeyBefore y z → bidKeyBefore x z := by
  simp only [bidKeyBefore, decide_eq_true_eq]
  omega

theorem bidKeyBefore_total (x y : Order) : bidKeyBefore x y || bidKeyBefore y x := by
  simp only [bidKeyBefore, Bool.or_eq_true, decide_eq_true_eq]
  omega

theorem bestAsk_eq (b : Book) :
    b.bestAsk = b.asks.foldl (bestStep fun x o => o.price < x.price) none := by
  unfold bestAsk
  congr 1
  funext best o
  cases best <;> rfl

theorem bestBid_eq (b : Book) :
    b.bestBid = b.bids.foldl (bestStep fun x o => x.price ≤ o.price) none := by
  unfold bestBid
  congr 1
  funext best o
  cases best <;> rfl

/-- The best ask is the first order of the lowest price. -/
theorem bestAsk_spec {b : Book} {o : Order} (h : b.bestAsk = some o) :
    ∃ pre post, b.asks = pre ++ o :: post ∧ (∀ x ∈ pre, o.price < x.price) ∧
      ∀ x ∈ post, o.price ≤ x.price := by
  rw [bestAsk_eq] at h
  obtain ⟨pre, post, hasks, hpre, hpost⟩ :=
    foldl_bestStep_spec (fun x o : Order => o.price < x.price)
    (fun a b c hab hbc => Nat.lt_trans hbc hab) (fun a b c hab hac => by omega) h
  exact ⟨pre, post, hasks, hpre, fun x hx => Nat.le_of_not_lt (hpost x hx)⟩

/-- The best bid is the last order of the highest price. -/
theorem bestBid_spec {b : Book} {o : Order} (h : b.bestBid = some o) :
    ∃ pre post, b.bids = pre ++ o :: post ∧ (∀ x ∈ pre, x.price ≤ o.price) ∧
      ∀ x ∈ post, x.price < o.price := by
  rw [bestBid_eq] at h
  obtain ⟨pre, post, hbids, hpre, hpost⟩ :=
    foldl_bestStep_spec (fun x o : Order => x.price ≤ o.price)
    (fun a b c hab hbc => Nat.le_trans hab hbc) (fun a b c hab hac => by omega) h
  exact ⟨pre, post, hbids, hpre, fun x hx => Nat.lt_of_not_le (hpost x hx)⟩

/-- What sorting and the best orders give on a book whose orders carry their keys. -/
structure SortsByKey (b : Book) : Prop where
  bids_perm : b.sorted.bids.Perm b.bids
  asks_perm : b.sorted.asks.Perm b.asks
  /-- On the asks, comparing price and then id is comparing keys. -/
  askBefore_eq : ∀ x ∈ b.asks, ∀ y ∈ b.asks,
    askBefore x y = decide (x.key.value ≤ y.key.value)
  asks_sorted : b.sorted.asks.Pairwise fun x y => x.key.value ≤ y.key.value
  /-- Asks of one key keep the order of the node table. -/
  asks_stable : ∀ k, b.sorted.asks.filter (·.key.value = k) = b.asks.filter (·.key.value = k)
  bids_sorted : b.sorted.bids.Pairwise fun x y =>
    y.price < x.price ∨ x.price = y.price ∧ x.key.value ≤ y.key.value
  /-- Bids of one key keep the order of the node table. -/
  bids_stable : ∀ k, b.sorted.bids.filter (·.key.value = k) = b.bids.filter (·.key.value = k)
  bestAsk_none : b.bestAsk = none ↔ b.asks = []
  /-- The best ask has the price of the first sorted ask and is the first of the lowest price
  in table order. -/
  bestAsk_some : ∀ o, b.bestAsk = some o → b.sorted.asks.head?.map (·.price) = some o.price ∧
    ∃ pre post, b.asks = pre ++ o :: post ∧ (∀ x ∈ pre, o.price < x.price) ∧
      ∀ x ∈ post, o.price ≤ x.price
  bestBid_none : b.bestBid = none ↔ b.bids = []
  /-- The best bid has the price of the first sorted bid and is the last of the highest price
  in table order. -/
  bestBid_some : ∀ o, b.bestBid = some o → b.sorted.bids.head?.map (·.price) = some o.price ∧
    ∃ pre post, b.bids = pre ++ o :: post ∧ (∀ x ∈ pre, x.price ≤ o.price) ∧
      ∀ x ∈ post, x.price < o.price

end Book

/-! ## Assembled books -/

namespace Book

variable {b : Book}

theorem sorted_asks_eq (hkeyed : ∀ o ∈ b.asks, o.Keyed) :
    b.sorted.asks = b.asks.mergeSort fun x y => decide (x.key.value ≤ y.key.value) :=
  mergeSort_congr fun x hx y hy => askBefore_eq_of_keyed (hkeyed x hx) (hkeyed y hy)

theorem sorted_bids_eq (hkeyed : ∀ o ∈ b.bids, o.Keyed) :
    b.sorted.bids = b.bids.mergeSort bidKeyBefore :=
  mergeSort_congr fun x hx y hy => bidBefore_eq_of_keyed (hkeyed x hx) (hkeyed y hy)

theorem pairwise_sorted_asks (hkeyed : ∀ o ∈ b.asks, o.Keyed) :
    b.sorted.asks.Pairwise fun x y => x.key.value ≤ y.key.value := by
  rw [sorted_asks_eq hkeyed]
  have hsorted : (b.asks.mergeSort fun x y => decide (x.key.value ≤ y.key.value)).Pairwise
      fun x y => decide (x.key.value ≤ y.key.value) = true :=
    List.pairwise_mergeSort (fun x y z hxy hyz => by simp only [decide_eq_true_eq] at *; omega)
      (fun x y => by simp only [Bool.or_eq_true, decide_eq_true_eq]; omega) b.asks
  simpa using hsorted

theorem pairwise_sorted_bids (hkeyed : ∀ o ∈ b.bids, o.Keyed) :
    b.sorted.bids.Pairwise fun x y =>
      y.price < x.price ∨ x.price = y.price ∧ x.key.value ≤ y.key.value := by
  rw [sorted_bids_eq hkeyed]
  simpa [bidKeyBefore] using
    List.pairwise_mergeSort bidKeyBefore_trans bidKeyBefore_total b.bids

theorem sorted_asks_stable (hkeyed : ∀ o ∈ b.asks, o.Keyed) (k : Nat) :
    b.sorted.asks.filter (·.key.value = k) = b.asks.filter (·.key.value = k) := by
  rw [sorted_asks_eq hkeyed]
  apply filter_mergeSort_of_tied
    (fun x y z hxy hyz => by simp only [decide_eq_true_eq] at *; omega)
    (fun x y => by simp only [Bool.or_eq_true, decide_eq_true_eq]; omega)
  intro x _ y _ hx hy
  simp only [decide_eq_true_eq] at hx hy ⊢
  omega

theorem sorted_bids_stable (hkeyed : ∀ o ∈ b.bids, o.Keyed) (k : Nat) :
    b.sorted.bids.filter (·.key.value = k) = b.bids.filter (·.key.value = k) := by
  rw [sorted_bids_eq hkeyed]
  apply filter_mergeSort_of_tied bidKeyBefore_trans bidKeyBefore_total
  intro x hx y hy hxk hyk
  simp only [decide_eq_true_eq] at hxk hyk
  rw [bidKeyBefore, (hkeyed x hx).1, (hkeyed y hy).1, Key.price, Key.price, hxk, hyk]
  simp

theorem bestAsk_price_head (hkeyed : ∀ o ∈ b.asks, o.Keyed) {o : Order}
    (h : b.bestAsk = some o) : b.sorted.asks.head?.map (·.price) = some o.price := by
  obtain ⟨pre, post, hasks, hpre, hpost⟩ := bestAsk_spec h
  have hmin : ∀ x ∈ b.asks, o.price ≤ x.price := by
    intro x hx
    rw [hasks] at hx
    rcases List.mem_append.1 hx with hx | hx
    · exact Nat.le_of_lt (hpre x hx)
    · rcases List.mem_cons.1 hx with rfl | hx
      · exact Nat.le_refl _
      · exact hpost x hx
  have hperm := (List.mergeSort_perm b.asks fun x y => decide (x.key.value ≤ y.key.value))
  have hsorted := pairwise_sorted_asks hkeyed
  rw [sorted_asks_eq hkeyed] at hsorted ⊢
  cases hfirst : b.asks.mergeSort (fun x y => decide (x.key.value ≤ y.key.value)) with
  | nil =>
    have ho : o ∈ b.asks := by simp [hasks]
    rw [← hperm.mem_iff, hfirst] at ho
    cases ho
  | cons first rest =>
    rw [hfirst, List.pairwise_cons] at hsorted
    have hfirst_mem : first ∈ b.asks := by
      rw [← hperm.mem_iff, hfirst]
      exact List.mem_cons_self
    have ho : o ∈ first :: rest := by
      rw [← hfirst, hperm.mem_iff, hasks]
      simp
    have hle : first.price ≤ o.price := by
      rcases List.mem_cons.1 ho with rfl | ho
      · exact Nat.le_refl _
      · rw [(hkeyed first hfirst_mem).1, (hkeyed o (hperm.mem_iff.1 (hfirst ▸
          List.mem_cons_of_mem first ho))).1]
        exact Nat.div_le_div_right (hsorted.1 o ho)
    simp only [List.head?_cons, Option.map_some, Option.some.injEq]
    exact Nat.le_antisymm hle (hmin first hfirst_mem)

theorem bestBid_price_head (hkeyed : ∀ o ∈ b.bids, o.Keyed) {o : Order}
    (h : b.bestBid = some o) : b.sorted.bids.head?.map (·.price) = some o.price := by
  obtain ⟨pre, post, hbids, hpre, hpost⟩ := bestBid_spec h
  have hmax : ∀ x ∈ b.bids, x.price ≤ o.price := by
    intro x hx
    rw [hbids] at hx
    rcases List.mem_append.1 hx with hx | hx
    · exact hpre x hx
    · rcases List.mem_cons.1 hx with rfl | hx
      · exact Nat.le_refl _
      · exact Nat.le_of_lt (hpost x hx)
  have hperm := List.mergeSort_perm b.bids bidKeyBefore
  have hsorted := pairwise_sorted_bids hkeyed
  rw [sorted_bids_eq hkeyed] at hsorted ⊢
  cases hfirst : b.bids.mergeSort bidKeyBefore with
  | nil =>
    have ho : o ∈ b.bids := by simp [hbids]
    rw [← hperm.mem_iff, hfirst] at ho
    cases ho
  | cons first rest =>
    rw [hfirst, List.pairwise_cons] at hsorted
    have hfirst_mem : first ∈ b.bids := by
      rw [← hperm.mem_iff, hfirst]
      exact List.mem_cons_self
    have ho : o ∈ first :: rest := by
      rw [← hfirst, hperm.mem_iff, hbids]
      simp
    have hge : o.price ≤ first.price := by
      rcases List.mem_cons.1 ho with rfl | ho
      · exact Nat.le_refl _
      · rcases hsorted.1 o ho with hlt | ⟨heq, -⟩
        · exact Nat.le_of_lt hlt
        · exact Nat.le_of_eq heq.symm
    simp only [List.head?_cons, Option.map_some, Option.some.injEq]
    exact Nat.le_antisymm (hmax first hfirst_mem) hge

end Book

/-- On every assembled book, sorting keeps each side a permutation of itself; it orders the asks
by ascending key, since comparing price and then order id is comparing keys, and the bids by
descending price and then ascending key, in both cases keeping the table order of orders with
one key. The best ask (bid) is missing exactly when there are no asks (bids); otherwise it has
the price of the first sorted ask (bid) and is the first order of the lowest price (the last of
the highest) in table order. -/
theorem assembled_book_sorts_by_key {s : BookSlab} {b : Book} (h : s.assemble = .ok b) :
    b.SortsByKey := by
  obtain ⟨hbids, hasks⟩ := keyed_of_assemble h
  exact {
    bids_perm := List.mergeSort_perm _ _
    asks_perm := List.mergeSort_perm _ _
    askBefore_eq := fun x hx y hy => Book.askBefore_eq_of_keyed (hasks x hx) (hasks y hy)
    asks_sorted := Book.pairwise_sorted_asks hasks
    asks_stable := Book.sorted_asks_stable hasks
    bids_sorted := Book.pairwise_sorted_bids hbids
    bids_stable := Book.sorted_bids_stable hbids
    bestAsk_none := by rw [Book.bestAsk_eq]; exact foldl_bestStep_eq_none_iff _
    bestAsk_some := fun _ ho => ⟨Book.bestAsk_price_head hasks ho, Book.bestAsk_spec ho⟩
    bestBid_none := by rw [Book.bestBid_eq]; exact foldl_bestStep_eq_none_iff _
    bestBid_some := fun _ ho => ⟨Book.bestBid_price_head hbids ho, Book.bestBid_spec ho⟩ }

/-- Two bids at prices 5 and 7 with a free node between them, and one ask at price 5. -/
def sampleBookSlab : BookSlab where
  version := 1
  bidTreeHeader := Header.ofFields 0 0 0 []
  askTreeHeader := Header.ofFields 0 0 0 []
  bidOrdersHeader := Header.ofFields 0 0 0 []
  askOrdersHeader := Header.ofFields 0 0 0 []
  bidTree := ⟨TreeInfo.empty,
    #[.leaf ⟨1, ⟨5 * 2 ^ 64 + 3, by decide⟩, Address.zero⟩, .free 0,
      .leaf ⟨0, ⟨7 * 2 ^ 64 + 1, by decide⟩, Address.zero⟩]⟩
  askTree := ⟨TreeInfo.empty, #[.leaf ⟨0, ⟨5 * 2 ^ 64 + 9, by decide⟩, Address.zero⟩]⟩
  bidOrders := ⟨⟨0, 2⟩, #[⟨20, 0⟩, ⟨10, 0⟩]⟩
  askOrders := ⟨⟨0, 1⟩, #[⟨30, 0⟩]⟩

/-- The book of `sampleBookSlab`, each order joined from its leaf and slot. -/
def sampleBook : Book where
  bids := [Leaf.order .bid ⟨1, ⟨5 * 2 ^ 64 + 3, by decide⟩, Address.zero⟩ ⟨10, 0⟩,
    Leaf.order .bid ⟨0, ⟨7 * 2 ^ 64 + 1, by decide⟩, Address.zero⟩ ⟨20, 0⟩]
  asks := [Leaf.order .ask ⟨0, ⟨5 * 2 ^ 64 + 9, by decide⟩, Address.zero⟩ ⟨30, 0⟩]

theorem sampleBook_sorts_by_key :
    sampleBookSlab.assemble = .ok sampleBook ∧ sampleBook.SortsByKey := by
  have h : sampleBookSlab.assemble = .ok sampleBook := rfl
  exact ⟨h, assembled_book_sorts_by_key h⟩

end SlabLedger
