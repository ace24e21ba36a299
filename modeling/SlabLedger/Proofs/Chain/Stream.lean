import Mathlib.Data.Nat.Find
import SlabLedger.Proofs.Chain.Steps

/-!
# What a chain walk hands out

A walk through a chain of settlement logs is lazy and keeps state of its own: the entries of the
last log still to hand out, the upcoming link, the logs visited so far. This file describes what
it hands out without any of that state, from the links of the chain alone.

The links of a chain are its first address and then, as long as each log loads, the `next`
field of each log in turn (`LogChain.link`). The walk stops at the first link that is the
sentinel, that comes once the limit of logs is reached, that repeats an earlier link, or whose
log cannot be fetched or decoded (`LogChain.stopIndex`). Until then it hands out the entries of
each log, only one owner's when an owner is given; at the stop it ends with the fault of the
first of these checks that fails, unless the link is the sentinel (`LogChain.stream`).

The main result, `calls_ofAccounts`, says that calling `next` on a walk over a store of accounts
hands out exactly this stream, each step with the number of logs visited after it, and nothing
once the stream is used up.
-/

namespace SlabLedger

/-- A chain of settlement logs as a walk meets it: where each log is fetched from, how it is
decoded, whose entries are wanted, and where the chain starts. -/
structure LogChain where
  fetch : Address → Except Fault Bytes
  config : DecoderConfig
  owner : Option Address
  first : Address

namespace LogChain

variable (ch : LogChain)

/-- The log at an address: its blob fetched, then decoded. -/
def logAt (a : Address) : Except Fault SettlementLog :=
  ch.fetch a >>= fun blob => SettlementLog.decode blob ch.config

/-- The `i`-th link of the chain: the first address, then the `next` field of the log at each
link, as long as that log loads. -/
def link : Nat → Option Address
  | 0 => some ch.first
  | i + 1 => (link i).bind fun a => (ch.logAt a).toOption.map (·.next)

/-- The links before the `i`-th. -/
def linksBefore (i : Nat) : List Address :=
  (List.range i).filterMap ch.link

/-- Whether the walk stops at the `i`-th link: it is the sentinel, `i` logs are already the
limit, it repeats an earlier link, or its log does not load. -/
def stopsAt (i : Nat) : Bool :=
  match ch.link i with
  | none => true
  | some a =>
    a.isSentinel || decide (ch.config.maxChainLen ≤ i) || decide (a ∈ ch.linksBefore i) ||
      !(ch.logAt a).toBool

theorem exists_stopsAt : ∃ i, ch.stopsAt i = true := by
  refine ⟨ch.config.maxChainLen, ?_⟩
  unfold stopsAt
  split <;> simp

/-- The index of the link the walk stops at: the first one that stops it. -/
def stopIndex : Nat :=
  Nat.find ch.exists_stopsAt

/-- The entries of a log that the walk hands out: those of the owner, if one is given. -/
def handedOut (log : SettlementLog) : List Entry :=
  match ch.owner with
  | some o => log.entriesFor o
  | none => log.entries

/-- The steps for the log at the `i`-th link: its entries, with `i + 1` logs visited. -/
def entrySteps (i : Nat) : List (Except Fault Entry × Nat) :=
  match (ch.link i).bind fun a => (ch.logAt a).toOption with
  | some log => (ch.handedOut log).map fun e => (.ok e, i + 1)
  | none => []

/-- The fault the walk ends with at the `i`-th link, with the logs visited by then; none at the
sentinel. The limit and a repeated link stop the walk before the log is fetched, a log that
cannot be fetched or decoded after it counts as visited. -/
def faultAt (i : Nat) : Option (Fault × Nat) :=
  match ch.link i with
  | none => none
  | some a =>
    if a.isSentinel then none
    else if ch.config.maxChainLen ≤ i then
      some (.layout (.chainTooLong ch.config.maxChainLen), i)
    else if a ∈ ch.linksBefore i then some (.layout (.chainRevisits a), i)
    else
      match ch.logAt a with
      | .error f => some (f, i + 1)
      | .ok _ => none

/-- Every step of the walk, each with the logs visited after it: the entries of the logs before
the stop, then the fault at the stop, if any. -/
def stream : List (Except Fault Entry × Nat) :=
  (List.range ch.stopIndex).flatMap ch.entrySteps ++
    ((ch.faultAt ch.stopIndex).map fun (f, n) => (.error f, n)).toList

/-- The logs visited once the walk is over. -/
def visitedAtEnd : Nat :=
  match ch.faultAt ch.stopIndex with
  | some (_, n) => n
  | none => ch.stopIndex

/-! ## The links before the stop -/

/-- Below the stop, each link is no sentinel, comes before the limit, repeats no earlier link,
and its log loads. -/
theorem link_below_stop {i : Nat} (hi : i < ch.stopIndex) :
    ∃ a log, ch.link i = some a ∧ a.isSentinel = false ∧ i < ch.config.maxChainLen ∧
      a ∉ ch.linksBefore i ∧ ch.logAt a = .ok log := by
  have hgo : ch.stopsAt i ≠ true := Nat.find_min ch.exists_stopsAt hi
  unfold stopsAt at hgo
  cases hl : ch.link i with
  | none => simp [hl] at hgo
  | some a =>
    cases hlog : ch.logAt a with
    | error f => simp [hl, hlog, Except.toBool] at hgo
    | ok log =>
      have hgo' : (a.isSentinel = false ∧ i < ch.config.maxChainLen) ∧
          a ∉ ch.linksBefore i := by
        simpa [hl, hlog, Except.toBool] using hgo
      obtain ⟨⟨hsent, hlt⟩, hnew⟩ := hgo'
      exact ⟨a, log, rfl, hsent, hlt, hnew, hlog⟩

theorem link_succ {i : Nat} {a : Address} {log : SettlementLog} (hl : ch.link i = some a)
    (hlog : ch.logAt a = .ok log) : ch.link (i + 1) = some log.next := by
  simp [link, hl, hlog, Except.toOption]

/-- Every link up to the stop exists. -/
theorem link_upto_stop {i : Nat} (hi : i ≤ ch.stopIndex) : ∃ a, ch.link i = some a := by
  induction i with
  | zero => exact ⟨ch.first, rfl⟩
  | succ i ih =>
    obtain ⟨a, log, hl, -, -, -, hlog⟩ := ch.link_below_stop (i := i) (by omega)
    exact ⟨log.next, ch.link_succ hl hlog⟩

theorem linksBefore_succ {i : Nat} {a : Address} (hl : ch.link i = some a) :
    ch.linksBefore (i + 1) = ch.linksBefore i ++ [a] := by
  simp [linksBefore, List.range_succ, List.filterMap_append, hl]

theorem length_linksBefore {i : Nat} (hi : i ≤ ch.stopIndex) :
    (ch.linksBefore i).length = i := by
  induction i with
  | zero => rfl
  | succ i ih =>
    obtain ⟨a, hl⟩ := ch.link_upto_stop (i := i) (by omega)
    rw [ch.linksBefore_succ hl, List.length_append, ih (by omega), List.length_singleton]

/-! ## The walk against the stream -/

/-- The steps from the `j`-th link on. -/
def streamFrom (j : Nat) : List (Except Fault Entry × Nat) :=
  (List.range' j (ch.stopIndex - j)).flatMap ch.entrySteps ++
    ((ch.faultAt ch.stopIndex).map fun (f, n) => (.error f, n)).toList

theorem stream_eq_streamFrom : ch.stream = ch.streamFrom 0 := by
  simp [stream, streamFrom, List.range_eq_range']

theorem entrySteps_of_link {i : Nat} {a : Address} {log : SettlementLog}
    (hl : ch.link i = some a) (hlog : ch.logAt a = .ok log) :
    ch.entrySteps i = (ch.handedOut log).map fun e => (.ok e, i + 1) := by
  simp [entrySteps, hl, hlog, Except.toOption]

section Walk

variable {σ : Type} (src : LogSource σ)

/-- The walk over `src` that has handed out everything before the `j`-th link and is about to
take it. -/
def walkAt (s : σ) (j : Nat) : Chain σ where
  source := src
  state := s
  config := ch.config
  owner := ch.owner
  upcoming := (ch.link j).bind Address.nonSentinel
  visited := ch.linksBefore j
  pending := []

variable {src}

theorem keep_walkAt (s : σ) (j : Nat) (log : SettlementLog) :
    (ch.walkAt src s j).keep log.entries = ch.handedOut log := by
  cases h : ch.owner <;> simp [Chain.keep, handedOut, walkAt, SettlementLog.entriesFor, h]

variable (hfetch : ∀ s a, (src.fetch s a).1 = ch.fetch a)
include hfetch

theorem found_walkAt (s : σ) (j : Nat) (a : Address) :
    (ch.walkAt src s j).found a = ch.logAt a := by
  simp only [Chain.found, walkAt, hfetch, logAt]

/-- Below the stop, the walk loads the log at the link, hands out its entries, and is then about
to take the next link. -/
theorem walk_walkAt_below {j : Nat} (hj : j < ch.stopIndex) (s : σ) :
    ∃ s', (ch.walkAt src s j).walk.1 =
        ch.entrySteps j ++ (ch.walkAt src s' (j + 1)).walk.1 ∧
      (ch.walkAt src s j).walk.2 = (ch.walkAt src s' (j + 1)).walk.2 := by
  obtain ⟨a, log, hl, hsent, hlt, hnew, hlog⟩ := ch.link_below_stop hj
  have hup : (ch.walkAt src s j).upcoming = some a := by
    simp [walkAt, hl, Address.nonSentinel, hsent]
  have hvis : (ch.walkAt src s j).visited.length = j :=
    ch.length_linksBefore (Nat.le_of_lt hj)
  have hstep := Chain.Step.loads (ch.walkAt src s j) a log rfl hup (by rw [hvis]; exact hlt)
    hnew (by rw [ch.found_walkAt hfetch, hlog])
  have hafter : { (ch.walkAt src s j).fetched a with
        upcoming := log.nextLog, pending := (ch.walkAt src s j).keep log.entries } =
      { ch.walkAt src (src.fetch s a).2 (j + 1) with pending := ch.handedOut log } := by
    rw [keep_walkAt]
    simp [Chain.fetched, walkAt, ch.linksBefore_succ hl, ch.link_succ hl hlog,
      SettlementLog.nextLog]
  refine ⟨(src.fetch s a).2, ?_, ?_⟩
  · have hlen : (ch.walkAt src (src.fetch s a).2 (j + 1)).visited.length = j + 1 :=
      ch.length_linksBefore (by omega)
    rw [Chain.walk_of_loaded (Chain.advance_eq_iff.mpr hstep), hafter,
      (Chain.walk_pending _).1, ch.entrySteps_of_link hl hlog]
    simp only [hlen]
    rfl
  · rw [Chain.walk_of_loaded (Chain.advance_eq_iff.mpr hstep), hafter,
      (Chain.walk_pending _).2]
    rfl

/-- At the stop, the walk ends with the fault of the stop, if any, and the logs it has visited
then are those the stream ends with. -/
theorem walk_walkAt_stop (s : σ) :
    (ch.walkAt src s ch.stopIndex).walk.1 =
        ((ch.faultAt ch.stopIndex).map fun (f, n) => (.error f, n)).toList ∧
      (ch.walkAt src s ch.stopIndex).walk.2.visited.length = ch.visitedAtEnd := by
  obtain ⟨a, hl⟩ := ch.link_upto_stop (le_refl ch.stopIndex)
  have hstop : ch.stopsAt ch.stopIndex = true := Nat.find_spec ch.exists_stopsAt
  have hlinks : (ch.linksBefore ch.stopIndex).length = ch.stopIndex :=
    ch.length_linksBefore le_rfl
  have hvis : (ch.walkAt src s ch.stopIndex).visited.length = ch.stopIndex := hlinks
  by_cases hsent : a.isSentinel = true
  · have hend : (ch.walkAt src s ch.stopIndex).Ended := by
      simp [Chain.Ended, walkAt, hl, Address.nonSentinel, hsent]
    have hfault : ch.faultAt ch.stopIndex = none := by simp [faultAt, hl, hsent]
    rw [Chain.walk_of_ended hend, visitedAtEnd, hfault]
    exact ⟨rfl, hvis⟩
  have hup : (ch.walkAt src s ch.stopIndex).upcoming = some a := by
    simp [walkAt, hl, Address.nonSentinel, hsent]
  by_cases hmax : ch.config.maxChainLen ≤ ch.stopIndex
  · have hfault : ch.faultAt ch.stopIndex =
        some (.layout (.chainTooLong ch.config.maxChainLen), ch.stopIndex) := by
      simp [faultAt, hl, hsent, hmax]
    have hstep := Chain.Step.tooLong (ch.walkAt src s ch.stopIndex) a rfl hup
      (by rw [hvis]; exact hmax)
    rw [Chain.walk_of_failed (Chain.advance_eq_iff.mpr hstep), visitedAtEnd, hfault]
    exact ⟨by simp [walkAt, hlinks], hvis⟩
  have hlt : (ch.walkAt src s ch.stopIndex).visited.length < ch.config.maxChainLen := by
    omega
  by_cases hmem : a ∈ ch.linksBefore ch.stopIndex
  · have hfault : ch.faultAt ch.stopIndex =
        some (.layout (.chainRevisits a), ch.stopIndex) := by
      simp [faultAt, hl, hsent, hmax, hmem]
    have hstep := Chain.Step.revisit (ch.walkAt src s ch.stopIndex) a rfl hup hlt hmem
    rw [Chain.walk_of_failed (Chain.advance_eq_iff.mpr hstep), visitedAtEnd, hfault]
    exact ⟨by simp [walkAt, hlinks], hvis⟩
  obtain ⟨f, hf⟩ : ∃ f, ch.logAt a = .error f := by
    cases hlog : ch.logAt a with
    | error f => exact ⟨f, rfl⟩
    | ok log => simp [stopsAt, hl, hsent, hmax, hmem, hlog, Except.toBool] at hstop
  have hfault : ch.faultAt ch.stopIndex = some (f, ch.stopIndex + 1) := by
    simp [faultAt, hl, hsent, hmax, hmem, hf]
  have hstep := Chain.Step.loadFails (ch.walkAt src s ch.stopIndex) a f rfl hup hlt hmem
    (by rw [ch.found_walkAt hfetch, hf])
  have hlen : (((ch.walkAt src s ch.stopIndex).fetched a)).visited.length =
      ch.stopIndex + 1 := by
    simp [Chain.fetched, hvis]
  rw [Chain.walk_of_failed (Chain.advance_eq_iff.mpr hstep), visitedAtEnd, hfault]
  exact ⟨by simp [hlen], hlen⟩

/-- From the `j`-th link on, the walk hands out the stream from there, and ends having visited
as many logs as the stream says. The induction runs down from the stop. -/
theorem walk_walkAt {j : Nat} (hj : j ≤ ch.stopIndex) (s : σ) :
    (ch.walkAt src s j).walk.1 = ch.streamFrom j ∧
      (ch.walkAt src s j).walk.2.visited.length = ch.visitedAtEnd := by
  induction hn : ch.stopIndex - j generalizing j s with
  | zero =>
    obtain rfl : j = ch.stopIndex := by omega
    obtain ⟨hsteps, hvis⟩ := ch.walk_walkAt_stop hfetch s
    refine ⟨?_, hvis⟩
    simp [hsteps, streamFrom]
  | succ n ih =>
    obtain ⟨s', hsteps, hend⟩ := ch.walk_walkAt_below hfetch (j := j) (by omega) s
    obtain ⟨ih1, ih2⟩ := ih (j := j + 1) (by omega) s' (by omega)
    refine ⟨?_, by rw [hend, ih2]⟩
    have hrest : ch.stopIndex - (j + 1) = n := by omega
    rw [hsteps, ih1, streamFrom, streamFrom, hn, hrest, List.range'_succ, List.flatMap_cons,
      List.append_assoc]

/-- On a source whose fetches do not depend on its state, calling `next` `k` times from the start
hands out the first `k` steps of the stream, and nothing after its end. -/
theorem calls_start_eq_stream (s : σ) (k : Nat) :
    (Chain.start src s ch.first ch.config ch.owner).calls k =
      (ch.stream.map (fun r : Except Fault Entry × Nat => (some r.1, r.2)) ++
        List.replicate k (none, ch.visitedAtEnd)).take k := by
  have hstart : Chain.start src s ch.first ch.config ch.owner = ch.walkAt src s 0 := rfl
  obtain ⟨hsteps, hvis⟩ := ch.walk_walkAt hfetch (Nat.zero_le _) s
  rw [hstart, Chain.calls_eq_walk, hsteps, hvis, ← stream_eq_streamFrom]

end Walk

end LogChain

/-- Calling `next` `k` times on a walk over a store of accounts hands out the first `k` steps of
the chain's stream, each with the number of logs visited after it, and after the last step
nothing, with the number of logs the walk ended at. -/
theorem calls_ofAccounts (accounts : List (Address × Bytes)) (first : Address)
    (config : DecoderConfig) (owner : Option Address) (k : Nat) :
    let ch : LogChain :=
      ⟨fun a => ((LogSource.ofAccounts accounts).fetch () a).1, config, owner, first⟩
    (Chain.start (LogSource.ofAccounts accounts) () first config owner).calls k =
      (ch.stream.map (fun r : Except Fault Entry × Nat => (some r.1, r.2)) ++
        List.replicate k (none, ch.visitedAtEnd)).take k := by
  intro ch
  exact ch.calls_start_eq_stream (fun _ _ => rfl) () k

end SlabLedger
