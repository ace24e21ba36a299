import SlabLedger.Proofs.Decoder
import SlabLedger.Slab.Tree
import SlabLedger.Slab.Vector

/-!
# Fixed-width records and the faults of reading a blob

Most records of an account have a fixed width (`Decoder.Reads`): an address 32 bytes, a header
56, a tree's info block 32, a slot vector's 8, an order slot 16 and a balance slot 24.

Reading the collections of an account fails only on the account's own bytes: with a layout that
does not hold together, a record cut short or a node tag of no kind (`Fault.OfBlob`). It never
fails with a fault of the configuration, of a log source or of a text, which only other steps
give. `BlobFaults r` says that every fault of `r` is of the blob; it passes through `bind`, and
a read of a fixed width has it because it fails only when cut short. From these the collection
decoders have it (`Collection.decode_blobFaults`, `Tree.decode_blobFaults`).
-/

namespace SlabLedger

/-! ## Records of a fixed width -/

namespace Header

theorem read_reads : read.Reads 56 :=
  Decoder.u64_reads.bind fun _ => Decoder.u64_reads.bind fun _ => Decoder.u64_reads.bind fun _ =>
    (Decoder.replicate_reads Decoder.u16_reads maxCollectionPages).bind fun _ =>
      Decoder.pure_reads _

theorem readTable_reads (n : Nat) : (readTable n).Reads (n * 56) :=
  (Decoder.replicate_reads read_reads n).map _

end Header

/-! ## Faults of the blob -/

/-- A fault that the bytes of a blob give. -/
def Fault.OfBlob : Fault → Prop
  | .layout _ => True
  | .badNodeTag _ _ => True
  | .truncated _ _ => True
  | _ => False

/-- Every fault of a result is one that the bytes of a blob give. -/
def BlobFaults {α : Type} (r : Except Fault α) : Prop :=
  ∀ e, r = .error e → e.OfBlob

namespace BlobFaults

variable {α β : Type}

theorem ok (a : α) : BlobFaults (.ok a : Except Fault α) := by
  intro e he
  cases he

theorem error {e : Fault} (h : e.OfBlob) : BlobFaults (.error e : Except Fault α) := by
  intro e' he
  cases he
  exact h

theorem layout (f : LayoutFault) : BlobFaults (.error (.layout f) : Except Fault α) :=
  error trivial

theorem bind {x : Except Fault α} {f : α → Except Fault β} (hx : BlobFaults x)
    (hf : ∀ a, BlobFaults (f a)) : BlobFaults (x >>= f) := by
  intro e he
  cases hrun : x with
  | error e₀ =>
    rw [hrun] at he
    cases he
    exact hx _ hrun
  | ok a =>
    rw [hrun] at he
    exact hf a e he

theorem map {x : Except Fault α} (hx : BlobFaults x) (f : α → β) : BlobFaults (f <$> x) := by
  rw [← bind_pure_comp]
  exact bind hx fun _ => ok _

theorem mapM {l : List α} {f : α → Except Fault β} (hf : ∀ a ∈ l, BlobFaults (f a)) :
    BlobFaults (l.mapM f) := by
  induction l with
  | nil => exact ok _
  | cons a l ih =>
    rw [List.mapM_cons]
    exact bind (hf a List.mem_cons_self) fun _ =>
      bind (ih fun b hb => hf b (List.mem_cons_of_mem a hb)) fun _ => ok _

end BlobFaults

/-- A decoder that fails on any input only with a fault of the blob. -/
def Decoder.BlobFaults {α : Type} (d : Decoder α) : Prop :=
  ∀ bs, SlabLedger.BlobFaults (d.run bs)

namespace Decoder

variable {α β : Type}

theorem BlobFaults.bind {d : Decoder α} {g : α → Decoder β} (hd : d.BlobFaults)
    (hg : ∀ a, (g a).BlobFaults) : (d >>= g).BlobFaults := by
  intro bs
  rw [StateT.run_bind]
  exact SlabLedger.BlobFaults.bind (hd bs) fun p => hg p.1 p.2

theorem BlobFaults.pure (x : α) : (pure x : Decoder α).BlobFaults :=
  fun _ => SlabLedger.BlobFaults.ok _

theorem BlobFaults.lift {x : Except Fault α} (hx : SlabLedger.BlobFaults x) :
    (monadLift x : Decoder α).BlobFaults := by
  intro bs
  exact SlabLedger.BlobFaults.bind hx fun _ => SlabLedger.BlobFaults.ok _

/-- A read of a fixed width fails only when cut short. -/
theorem Reads.blobFaults {d : Decoder α} {w : Nat} (hd : d.Reads w) : d.BlobFaults := by
  intro bs e he
  by_cases hshort : bs.length < w
  · obtain ⟨n, r, hrun⟩ := hd.short bs hshort
    rw [hrun] at he
    cases he
    trivial
  · obtain ⟨x, hrun, -⟩ := hd.run_of_le (Nat.le_of_not_lt hshort)
    rw [hrun] at he
    cases he

theorem parse_blobFaults {d : Decoder α} (hd : d.BlobFaults) (bs : Bytes) :
    SlabLedger.BlobFaults (d.parse bs) :=
  SlabLedger.BlobFaults.map (hd bs) _

end Decoder

/-! ## Headers, pages and collections -/

namespace Header

theorem reserved_blobFaults (h : Header) : BlobFaults h.reserved := by
  unfold reserved
  dsimp only
  split
  · exact BlobFaults.ok _
  · exact BlobFaults.layout _

theorem itemsPerPage_blobFaults (h : Header) (recordSize : Nat) :
    BlobFaults (h.itemsPerPage recordSize) := by
  refine BlobFaults.bind h.reserved_blobFaults fun r => ?_
  dsimp only
  split
  · exact BlobFaults.layout _
  · exact BlobFaults.ok _

theorem pagePrefix_blobFaults (h : Header) : BlobFaults h.pagePrefix := by
  unfold pagePrefix
  split
  · exact BlobFaults.ok _
  · exact BlobFaults.layout _

theorem checkIndices_blobFaults :
    ∀ (position : Nat) (seen l : List UInt16), BlobFaults (checkIndices position seen l)
  | _, _, [] => BlobFaults.ok _
  | p, seen, i :: rest => by
    unfold checkIndices
    split
    · exact BlobFaults.layout _
    · split
      · exact BlobFaults.layout _
      · exact checkIndices_blobFaults (p + 1) (seen ++ [i]) rest

theorem usedPages_blobFaults (h : Header) (recordSize : Nat) :
    BlobFaults (h.usedPages recordSize) := by
  refine BlobFaults.bind ?_ fun t => ?_
  · refine BlobFaults.bind (h.itemsPerPage_blobFaults recordSize) fun per => ?_
    dsimp only
    split
    · exact BlobFaults.layout _
    · exact BlobFaults.ok _
  · exact BlobFaults.bind (checkIndices_blobFaults 0 [] _) fun _ => BlobFaults.ok _

end Header

theorem PagePool.select_blobFaults (pool : PagePool) (h : Header) (recordSize : Nat) :
    BlobFaults (pool.select h recordSize) := by
  refine BlobFaults.bind (h.usedPages_blobFaults recordSize) fun used => BlobFaults.mapM ?_
  intro i _
  unfold PagePool.page
  split
  · exact BlobFaults.ok _
  · exact BlobFaults.layout _

namespace Collection

variable {ι α : Type} {fmt : RecordFormat ι α}

theorem readRecords_blobFaults (hrec : ∀ i bytes, BlobFaults (fmt.readRecord i bytes))
    (count : Nat) : ∀ (k : Nat) (acc : Array α), (readRecords fmt count k acc).BlobFaults
  | 0, _ => Decoder.BlobFaults.pure _
  | k + 1, acc => by
    unfold readRecords
    split
    · exact Decoder.BlobFaults.pure _
    · exact (Decoder.take_reads fmt.size).blobFaults.bind fun bytes =>
        (Decoder.BlobFaults.lift (hrec acc.size bytes)).bind fun r =>
          readRecords_blobFaults hrec count k (acc.push r)

theorem readPages_blobFaults (hinfo : fmt.readInfo.BlobFaults)
    (hrec : ∀ i bytes, BlobFaults (fmt.readRecord i bytes)) (layout : PageLayout) :
    ∀ (first : Bool) (pages : List Bytes) (s : ι × Array α),
      BlobFaults (readPages fmt layout first pages s)
  | _, [], _ => BlobFaults.ok _
  | first, p :: ps, (info, acc) => by
    unfold readPages
    have hpage : (readPage fmt layout first info acc).BlobFaults := by
      have hrest : ∀ info' : ι, (readRecords fmt layout.count layout.perPage acc >>= fun acc' =>
          (pure (info', acc') : Decoder (ι × Array α))).BlobFaults := fun _ =>
        (readRecords_blobFaults hrec layout.count layout.perPage acc).bind fun _ =>
          Decoder.BlobFaults.pure _
      refine (Decoder.skip_reads layout.offset).blobFaults.bind fun _ => ?_
      dsimp only
      split
      · exact hinfo.bind hrest
      · exact (Decoder.BlobFaults.pure info).bind hrest
    exact BlobFaults.bind (Decoder.parse_blobFaults hpage p) fun s =>
      readPages_blobFaults hinfo hrec layout false ps s

/-- A collection is read from its pages failing only on their bytes. -/
theorem decode_blobFaults (hinfo : fmt.readInfo.BlobFaults)
    (hrec : ∀ i bytes, BlobFaults (fmt.readRecord i bytes)) (h : Header) (pool : PagePool) :
    BlobFaults (decode fmt h pool) :=
  BlobFaults.bind (pool.select_blobFaults h fmt.size) fun _ =>
    BlobFaults.bind (h.itemsPerPage_blobFaults fmt.size) fun _ =>
      BlobFaults.bind h.pagePrefix_blobFaults fun _ =>
        BlobFaults.bind (readPages_blobFaults hinfo hrec _ true _ _) fun _ => BlobFaults.ok _

end Collection

/-! ## Trees and slot vectors -/

theorem Decoder.throw_blobFaults {α : Type} {e : Fault} (h : e.OfBlob) :
    (throw e : Decoder α).BlobFaults :=
  fun _ => BlobFaults.error h

theorem Node.read_blobFaults (index : Nat) : (Node.read index).BlobFaults := by
  refine Decoder.u32_reads.blobFaults.bind fun tag => ?_
  split
  · exact Decoder.BlobFaults.pure _
  · exact (Decoder.key_reads.bind fun _ => Decoder.u32_reads.bind fun _ =>
      Decoder.u32_reads.bind fun _ => Decoder.u32_reads.bind fun _ =>
        Decoder.pure_reads _).blobFaults
  · exact (Decoder.u32_reads.bind fun _ => Decoder.key_reads.bind fun _ =>
      Decoder.address_reads.bind fun _ => Decoder.pure_reads _).blobFaults
  · exact (Decoder.u32_reads.map _).blobFaults
  · exact (Decoder.u32_reads.map _).blobFaults
  · exact Decoder.throw_blobFaults trivial

theorem TreeInfo.read_reads : TreeInfo.read.Reads 32 :=
  Decoder.u64_reads.bind fun _ => Decoder.u64_reads.bind fun _ =>
    Decoder.u32_reads.bind fun _ => Decoder.u32_reads.bind fun _ =>
      Decoder.u64_reads.bind fun _ => Decoder.pure_reads _

theorem Tree.decode_blobFaults (h : Header) (pool : PagePool) :
    BlobFaults (Tree.decode h pool) :=
  BlobFaults.bind
    (Collection.decode_blobFaults TreeInfo.read_reads.blobFaults
      (fun i bytes => Decoder.parse_blobFaults (Node.read_blobFaults i) bytes) h pool)
    fun _ => BlobFaults.ok _

theorem VectorInfo.read_reads : VectorInfo.read.Reads 8 :=
  Decoder.u32_reads.bind fun _ => Decoder.u32_reads.bind fun _ => Decoder.pure_reads _

theorem SlotVector.decode_slot_blobFaults {α : Type} {size w : Nat} {read : Decoder α}
    (hread : read.Reads w) (h : Header) (pool : PagePool) :
    BlobFaults (SlotVector.decode (slotFormat size read) h pool) :=
  BlobFaults.bind
    (Collection.decode_blobFaults VectorInfo.read_reads.blobFaults
      (fun _ bytes => Decoder.parse_blobFaults hread.blobFaults bytes) h pool)
    fun _ => BlobFaults.ok _

theorem OrderSlot.read_reads : OrderSlot.read.Reads 16 :=
  Decoder.u64_reads.bind fun _ => Decoder.i64_reads.bind fun _ => Decoder.pure_reads _

theorem BalanceSlot.read_reads : BalanceSlot.read.Reads 24 :=
  Decoder.u64_reads.bind fun _ => Decoder.u64_reads.bind fun _ =>
    Decoder.i64_reads.bind fun _ => Decoder.pure_reads _

end SlabLedger
