import SlabLedger.Market.Settlement
/-!
# Chains of settlement logs

Settlement logs form a chain through their `next` links. Walking a chain hands out the entries
of each log in turn (only an owner's, when one is given), then loads the next log, until a link
is the sentinel. Before a log is loaded, the walk checks that it has visited fewer logs than the
configured limit and that it has not visited this address; a log counts as visited from then
on, even if fetching or decoding it fails. After a fault the walk ends.

A log source may change with each fetch. The walk ends because every load visits one more log
and the number of visits is bounded by the limit.
-/

namespace SlabLedger

/-- A source of account blobs; a fetch may change the source's state. -/
structure LogSource (σ : Type) where
  fetch : σ → Address → Except Fault Bytes × σ

/-- The source of accounts held in a list; of two entries with one address, the later counts. -/
def LogSource.ofAccounts (accounts : List (Address × Bytes)) : LogSource Unit :=
  ⟨fun _ a => (match (accounts.reverse.find? (·.1 == a)) with
    | some (_, blob) => .ok blob
    | none => .error (.source (.unavailable a)), ())⟩

/-- A walk through a chain of settlement logs. -/
structure Chain (σ : Type) where
  source : LogSource σ
  state : σ
  config : DecoderConfig
  owner : Option Address
  /-- The log to load once the pending entries are handed out. -/
  upcoming : Option Address
  /-- The logs loaded or tried so far. -/
  visited : List Address
  /-- Entries of the last log not yet handed out. -/
  pending : List Entry

/-- What one move of a walk did. -/
inductive ChainMove where
  /-- Handed out a pending entry. -/
  | entry (e : Entry)
  /-- Loaded the upcoming log. -/
  | loaded
  /-- Could not load the upcoming log; the walk is over. -/
  | failed (f : Fault)
  /-- No entry is pending and no log is upcoming. -/
  | finished

namespace Chain

/-- A walk from the first log, unless it is the sentinel. -/
def start (source : LogSource σ) (state : σ) (first : Address) (config : DecoderConfig)
    (owner : Option Address) : Chain σ :=
  { source, state, config, owner, upcoming := first.nonSentinel, visited := [], pending := [] }

/-- The entries of a log that the walk hands out. -/
def keep (c : Chain σ) (entries : List Entry) : List Entry :=
  match c.owner with
  | some o => entries.filter (·.owner == o)
  | none => entries

/-- Loads the log at `a`: it counts as visited from now on, and its entries become pending. -/
def load (c : Chain σ) (a : Address) : ChainMove × Chain σ :=
  let fetched := c.source.fetch c.state a
  let c := { c with visited := c.visited ++ [a], state := fetched.2 }
  match fetched.1 >>= fun b => SettlementLog.decode b c.config with
  | .error f => (.failed f, c)
  | .ok log => (.loaded, { c with upcoming := log.nextLog, pending := c.keep log.entries })

/-- One move: hand out a pending entry, or else load the upcoming log. -/
def advance (c : Chain σ) : ChainMove × Chain σ :=
  match c.pending with
  | e :: rest => (.entry e, { c with pending := rest })
  | [] =>
    match c.upcoming with
    | none => (.finished, c)
    | some a =>
      let c := { c with upcoming := none }
      if c.config.maxChainLen ≤ c.visited.length then
        (.failed (.layout (.chainTooLong c.config.maxChainLen)), c)
      else if a ∈ c.visited then (.failed (.layout (.chainRevisits a)), c)
      else c.load a

/-- How far a walk is from its end: logs it may still visit, then entries pending. -/
def measure (c : Chain σ) : Nat × Nat :=
  (c.config.maxChainLen - c.visited.length, c.pending.length)

theorem load_config (c : Chain σ) (a : Address) : (c.load a).2.config = c.config := by
  unfold load; dsimp only; split <;> rfl

theorem load_visited (c : Chain σ) (a : Address) : (c.load a).2.visited = c.visited ++ [a] := by
  unfold load; dsimp only; split <;> rfl

theorem advance_entry_measure {c c' : Chain σ} {e : Entry}
    (h : c.advance = (.entry e, c')) :
    c'.config = c.config ∧ c'.visited = c.visited ∧
      c'.pending.length + 1 = c.pending.length := by
  unfold advance at h
  split at h
  · cases h; simp_all
  · split at h
    · cases h
    · dsimp only at h
      split at h
      · cases h
      · split at h
        · cases h
        · unfold load at h
          dsimp only at h
          split at h <;> cases h

theorem advance_loaded_measure {c c' : Chain σ} (h : c.advance = (.loaded, c')) :
    c'.config = c.config ∧ c.visited.length < c.config.maxChainLen ∧
      c'.visited.length = c.visited.length + 1 := by
  unfold advance at h
  split at h
  · cases h
  · split at h
    · cases h
    · dsimp only at h
      split at h
      · cases h
      · rename_i hlen
        split at h
        · cases h
        · have hc := congrArg Prod.snd h
          simp only at hc
          subst hc
          refine ⟨load_config _ _, by omega, ?_⟩
          simp [load_visited]

set_option linter.unusedVariables false in
/-- The next entry of the walk, or its fault, or nothing once it is over. -/
def next (c : Chain σ) : Option (Except Fault Entry) × Chain σ :=
  match h : c.advance with
  | (.entry e, c') => (some (.ok e), c')
  | (.failed f, c') => (some (.error f), c')
  | (.finished, c') => (none, c')
  | (.loaded, c') => c'.next
termination_by c.measure
decreasing_by
  obtain ⟨hc, hlt, hv⟩ := advance_loaded_measure h
  simp only [measure, hc, hv]
  exact Prod.Lex.left _ _ (by omega)

set_option linter.unusedVariables false in
/-- Every step of the walk to its end, each entry or the final fault with the number of logs
visited after it, and the walk as it ends. -/
def walk (c : Chain σ) : List (Except Fault Entry × Nat) × Chain σ :=
  match h : c.advance with
  | (.entry e, c') =>
    let (steps, last) := c'.walk
    ((.ok e, c'.visited.length) :: steps, last)
  | (.failed f, c') => ([(.error f, c'.visited.length)], c')
  | (.finished, c') => ([], c')
  | (.loaded, c') => c'.walk
termination_by c.measure
decreasing_by
  · obtain ⟨hc, hv, hp⟩ := advance_entry_measure h
    simp only [measure, hc, hv]
    exact Prod.Lex.right _ (by omega)
  · obtain ⟨hc, hlt, hv⟩ := advance_loaded_measure h
    simp only [measure, hc, hv]
    exact Prod.Lex.left _ _ (by omega)

end Chain

end SlabLedger
