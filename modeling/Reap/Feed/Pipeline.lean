import Reap.Feed.Sequence
import Reap.Base.OrderedMap
import Mathlib.Logic.Relation

/-!
# The canonical book of a replicated feed

Several connections carry the same books. `FeedProcessor` keeps a sequence tracker and a book for
every connection of a symbol, and publishes one canonical book for the symbol: the newest book of a
connection that is ready. Connections fail and recover on their own; when no connection is ready,
when the published book is stale, or when two connections disagree about the same version, the
symbol is recovering until some connection has a valid book again.

What a book is made of is left open: `BookLevels` gives the arithmetic of price levels. Events other
than book updates pass through the processor and touch no book; they and the counters are left out.
Maps that are only looked up are functions, and `none` is a panic.

## What is proved

* `receive_spec` — what a connection makes of an update, and that no `expect` fails.
* `processSourceBook_spec` — what one update does to the canonical book.
* `canonical_books` — over every run, the canonical book comes from a healthy connection.
-/

namespace Reap.Feed

open Base List Function

/-! ### Books -/

/-- The price levels: which ones a change may carry, how a change is applied to the bids and to the
asks, and which bids and asks make a valid book. -/
class BookLevels (Level : Type) extends BEq Level where
  /-- The level is well formed. -/
  sound : Level → Bool
  /-- A change of the bids. -/
  applyBids : List Level → List Level → List Level
  /-- A change of the asks. -/
  applyAsks : List Level → List Level → List Level
  /-- The bids and asks make a valid book. -/
  valid : List Level → List Level → Bool

/-- The price levels of a symbol at a time. -/
structure OrderBook (Level : Type) where
  symbol : String
  tsMs : ℕ
  bids : List Level
  asks : List Level
  deriving BEq

/-- The state of a book. -/
inductive BookStatus where
  | empty
  | recovering
  | ready
  | stale
  | gapped
  deriving DecidableEq

/-- A book that updates are applied to. -/
structure BookReducer (Level : Type) where
  symbol : String
  status : BookStatus := .empty
  book : Option (OrderBook Level) := none
  lastUpdateMs : Option ℕ := none

variable {Level Key : Type}

section

variable [BookLevels Level]

/-- The book can be published. -/
def OrderBook.isValid (book : OrderBook Level) : Bool := BookLevels.valid book.bids book.asks

/-- The book of a snapshot. -/
def SequencedBookUpdate.asBook (update : SequencedBookUpdate Level) : OrderBook Level :=
  ⟨update.symbol, update.tsMs, update.bids, update.asks⟩

namespace BookReducer

variable (r : BookReducer Level)

/-- `is_ready`. -/
def isReady : Bool := r.status = .ready

/-- `apply_snapshot`, which overwrites the whole reducer. -/
def applySnapshot (book : OrderBook Level) : BookReducer Level :=
  ⟨book.symbol, if book.isValid then .ready else .empty, some book, some book.tsMs⟩

/-- `apply_delta`. -/
def applyDelta (tsMs : ℕ) (bids asks : List Level) : BookReducer Level :=
  if (bids ++ asks).any fun level => !BookLevels.sound level then { r with status := .gapped }
  else
    match r.book with
    | none => { r with status := .empty }
    | some old =>
      let book := { old with
        bids := BookLevels.applyBids old.bids bids
        asks := BookLevels.applyAsks old.asks asks
        tsMs := tsMs }
      { r with
        book := some book
        lastUpdateMs := some tsMs
        status := if book.isValid then .ready else .empty }

/-- `mark_recovering`. -/
def markRecovering : BookReducer Level := { r with status := .recovering }

/-- `mark_gapped`. -/
def markGapped : BookReducer Level := { r with status := .gapped }

/-- An old book is stale. -/
def markStaleIfOlderThan (nowMs maxAgeMs : ℕ) : BookReducer Level :=
  if r.status = .ready ∧ (r.lastUpdateMs.any fun last => maxAgeMs < nowMs - last) then
    { r with status := .stale }
  else r

end BookReducer

/-- `apply_book_update`. -/
def applyBookUpdate (book : BookReducer Level) (update : SequencedBookUpdate Level) :
    BookReducer Level :=
  match update.action with
  | .snapshot => .applySnapshot update.asBook
  | .update => book.applyDelta update.tsMs update.bids update.asks

/-! ### Outputs -/

/-- The kinds of notices about a feed. -/
inductive SystemEventKind where
  | feedStale
  | feedGap
  | feedHeartbeat
  | feedRecovered
  | bookRecoveryStarted
  | bookRecoveryFailed

/-- A notice about the feed of a symbol. -/
structure SystemEvent where
  tsMs : ℕ
  kind : SystemEventKind
  symbol : String
  reason : String

/-- A request for a snapshot from a connection. -/
structure RecoveryRequest where
  symbol : String
  sourceConnId : String
  expectedPrev : Option ℤ
  receivedPrev : ℤ
  receivedSeq : ℤ

/-- The channels of a feed. -/
inductive Channel where
  | books
  | trades
  | orders
  | fills
  | account
  | positions
  | custom (name : String)
  deriving DecidableEq

/-- What tells two events of a feed apart. -/
structure EventId (Key : Type) where
  channel : Channel
  symbol : Option String
  key : Key

/-- What the processor reports. -/
inductive FeedOutput (Level Key : Type) where
  /-- A `Depth` event: a new canonical book. -/
  | depth (book : OrderBook Level)
  /-- The update was seen before. -/
  | duplicate (id : EventId Key)
  /-- A connection needs a snapshot. -/
  | recoveryRequired (request : RecoveryRequest)
  | system (event : SystemEvent)

/-! ### Connections -/

/-- The position of a book in the numbering of the exchange. -/
structure BookVersion where
  tsMs : ℕ
  prevSeqId : ℤ
  seqId : ℤ

/-- The version that an update leads to. -/
def BookVersion.ofUpdate (update : SequencedBookUpdate Level) : BookVersion :=
  ⟨update.tsMs, update.prevSeqId, update.seqId⟩

/-- Why a connection has lost its book. -/
structure SourceRecovery where
  sourceConnId : String
  tsMs : ℕ
  expectedPrev : Option ℤ
  receivedPrev : ℤ
  receivedSeq : ℤ
  reason : String
  /-- The buffer overflowed; otherwise a number is missing or the book is invalid. -/
  failed : Bool

/-- A connection: its tracker and its book. -/
structure SourceBookStream (Level : Type) where
  sequence : SequenceTracker Level
  book : BookReducer Level

/-- What an update of a connection is to the canonical book. -/
inductive Received (Level : Type) where
  /-- The connection has this valid book now. -/
  | candidate (version : BookVersion) (book : OrderBook Level)
  /-- The connection needs a snapshot. -/
  | lost (recovery : SourceRecovery)
  | nothing

/-- `{:?}` of an optional number. -/
def debugNumber : Option ℤ → String
  | none => "None"
  | some number => s!"Some({number})"

namespace SourceBookStream

/-- Nothing has arrived. -/
def new (symbol : String) (maxSequenceBuffer : ℕ) : SourceBookStream Level :=
  ⟨.new maxSequenceBuffer, { symbol }⟩

/-- The tracker and the book are ready. -/
def isReady (s : SourceBookStream Level) : Bool :=
  s.sequence.status = .ready && s.book.isReady

/-- The part of `process_source_book` that concerns the connection alone. -/
def receive (s : SourceBookStream Level) (source : String) (update : SequencedBookUpdate Level) :
    Option (Received Level × SourceBookStream Level) := do
  let (outcome, sequence) ← s.sequence.onUpdate update
  match outcome with
  | .apply updates => do
    let version ← updates.getLast?.map BookVersion.ofUpdate
    let book := updates.foldl applyBookUpdate s.book
    if book.isReady then do
      let candidate ← book.book
      some (.candidate version candidate, ⟨sequence, book⟩)
    else
      some (.lost ⟨source, update.tsMs, sequence.lastSeqId, version.prevSeqId, version.seqId,
        "book is empty, invalid, or crossed after sequenced update", false⟩,
        ⟨sequence.requireRecovery, book.markGapped.markRecovering⟩)
  | .duplicate | .buffered => some (.nothing, ⟨sequence, s.book⟩)
  | .recoveryRequired expectedPrev receivedPrev receivedSeq =>
    let expected := debugNumber expectedPrev
    some (.lost ⟨source, update.tsMs, expectedPrev, receivedPrev, receivedSeq,
      s!"source expected prev sequence {expected}, received {receivedPrev}", false⟩,
      ⟨sequence, s.book.markGapped.markRecovering⟩)
  | .recoveryFailed reason =>
    some (.lost ⟨source, update.tsMs, sequence.lastSeqId, 0, 0, reason, true⟩,
      ⟨sequence.requireRecovery, s.book.markRecovering⟩)

end SourceBookStream

/-! ### The canonical book -/

/-- The connections of a symbol, and its canonical book. -/
structure BookStream (Level : Type) where
  sources : OrderedMap String (SourceBookStream Level) := ∅
  published : BookReducer Level
  /-- The version of the canonical book. -/
  publishedVersion : Option BookVersion := none
  /-- No connection has had a valid book since the canonical one was lost. -/
  aggregateRecovering : Bool := false

/-- What becomes of the book of a connection. -/
inductive PublishDecision where
  | published
  | ignored
  | conflict

/-- What a disagreement of the connections asks for. -/
def conflictNotice : String := "request fresh snapshots from every conflicting source"

namespace BookStream

variable (symbol : String)

/-- No connection is known. -/
def new : BookStream Level := { published := { symbol } }

variable (b : BookStream Level)

/-- The canonical book may be used. -/
def isReady : Bool :=
  !b.aggregateRecovering && b.published.isReady && b.sources.valueList.any (·.isReady)

/-- `replace_published`. -/
def replacePublished (version : BookVersion) (book : OrderBook Level) : BookStream Level :=
  { b with
    published := .applySnapshot book
    publishedVersion := some version
    aggregateRecovering := false }

/-- `publish_candidate`. -/
def publishCandidate (version : BookVersion) (candidate : OrderBook Level) :
    PublishDecision × BookStream Level :=
  match b.aggregateRecovering, b.publishedVersion with
  | false, some current =>
    if version.tsMs < current.tsMs then (.ignored, b)
    else if current.tsMs < version.tsMs then (.published, b.replacePublished version candidate)
    else if version.seqId = current.seqId then
      (if b.published.book == some candidate then .ignored else .conflict, b)
    else if version.prevSeqId = current.seqId then
      (.published, b.replacePublished version candidate)
    else if current.prevSeqId = version.seqId then (.ignored, b)
    else (.conflict, b)
  | _, _ => (.published, b.replacePublished version candidate)

/-- The flag and the marks of a canonical book that is lost. -/
def lose : BookStream Level :=
  { b with aggregateRecovering := true, published := b.published.markGapped.markRecovering }

/-- `source_recovery_outputs`. -/
def sourceRecoveryOutputs (recovery : SourceRecovery) :
    List (FeedOutput Level Key) × BookStream Level :=
  let source := recovery.sourceConnId
  let request := .recoveryRequired ⟨symbol, source, recovery.expectedPrev, recovery.receivedPrev,
    recovery.receivedSeq⟩
  if b.isReady then ([request], b)
  else
    (.system ⟨recovery.tsMs, if recovery.failed then .bookRecoveryFailed else .feedGap, symbol,
        "source " ++ source ++ ": " ++ recovery.reason⟩ ::
      (if recovery.failed then [] else [.system ⟨recovery.tsMs, .bookRecoveryStarted, symbol,
        "request a fresh websocket snapshot from source " ++ source⟩]) ++ [request], b.lose)

/-- The connections disagree. -/
def replicaConflictOutputs (tsMs : ℕ) (version : BookVersion) :
    List (FeedOutput Level Key) × BookStream Level :=
  let time := version.tsMs
  let number := version.seqId
  (.system ⟨tsMs, .feedGap, symbol,
      s!"replica books disagree at exchange timestamp {time} sequence {number}"⟩ ::
    .system ⟨tsMs, .bookRecoveryStarted, symbol, conflictNotice⟩ ::
    b.sources.toList.map fun entry => .recoveryRequired ⟨symbol, entry.1,
      b.publishedVersion.map (·.seqId), version.prevSeqId, version.seqId⟩,
    { b.lose with sources := b.sources.map fun _ s =>
        ⟨s.sequence.requireRecovery, s.book.markRecovering⟩ })

/-- What is reported with a new canonical book; the readiness and the flag are those before the
update. -/
def publishedOutputs (tsMs : ℕ) (wasReady wasRecovering : Bool) : List (FeedOutput Level Key) :=
  (if wasReady then [] else [.system ⟨tsMs, .feedRecovered, symbol,
    if wasRecovering then "a source snapshot restored a valid canonical book"
    else "initial source snapshot established a canonical book"⟩]) ++
  .system ⟨tsMs, .feedHeartbeat, symbol, "source-sequenced canonical book update accepted"⟩ ::
  b.published.book.toList.map .depth

/-- The stream with a connection. -/
def setSource (source : String) (s : SourceBookStream Level) : BookStream Level :=
  { b with sources := b.sources.insert source s }

/-- The connection of an update; a new one is empty. -/
def sourceOf (maxSequenceBuffer : ℕ) (source symbol : String) : SourceBookStream Level :=
  b.sources[source]?.getD (.new symbol maxSequenceBuffer)

/-- A book message. -/
def processSourceBook (maxSequenceBuffer : ℕ) (source : String)
    (update : SequencedBookUpdate Level) :
    Option (List (FeedOutput Level Key) × BookStream Level) := do
  let (received, s) ← (b.sourceOf maxSequenceBuffer source update.symbol).receive source update
  let changed := b.setSource source s
  match received with
  | .nothing => some ([], changed)
  | .lost recovery => some (changed.sourceRecoveryOutputs update.symbol recovery)
  | .candidate version candidate =>
    match changed.publishCandidate version candidate with
    | (.published, next) =>
      some (next.publishedOutputs update.symbol update.tsMs b.isReady b.aggregateRecovering, next)
    | (.ignored, next) => some ([], next)
    | (.conflict, next) =>
      some (next.replicaConflictOutputs update.symbol update.tsMs version)

/-- The part of `mark_stale` for one stream. -/
def markStale (nowMs maxAgeMs : ℕ) : BookStream Level :=
  let published := b.published.markStaleIfOlderThan nowMs maxAgeMs
  { b with
    published := published
    aggregateRecovering := b.aggregateRecovering ||
      (b.published.status ≠ .stale && published.status = .stale) }

end BookStream

/-! ### The processor -/

/-- Whether an event is new. -/
inductive DedupDecision where
  | accepted
  | duplicate
  deriving DecidableEq

/-- The last keys of every stream, the oldest first. -/
structure Deduplicator (Key : Type) where
  capacityPerStream : ℕ
  recent : Channel × Option String × Option String → List Key := fun _ => []

/-- `check` without a connection, `check_source` with one. -/
def Deduplicator.check [DecidableEq Key] (d : Deduplicator Key) (id : EventId Key)
    (source : Option String) :
    DedupDecision × Deduplicator Key :=
  let stream := (id.channel, id.symbol, source)
  if id.key ∈ d.recent stream then (.duplicate, d)
  else
    let keys := d.recent stream ++ [id.key]
    let kept := if d.capacityPerStream < keys.length then keys.tail else keys
    (.accepted, { d with recent := Function.update d.recent stream kept })

/-- `FeedProcessor`. -/
structure FeedProcessor (Level Key : Type) where
  /-- Events of any connection. -/
  dedup : Deduplicator Key
  /-- Events of one connection. -/
  sourceDedup : Deduplicator Key
  maxSequenceBuffer : ℕ
  streams : String → Option (BookStream Level) := fun _ => none

namespace FeedProcessor

/-- `new`. -/
def new (dedupCapacityPerStream maxSequenceBuffer : ℕ) : FeedProcessor Level Key where
  dedup := { capacityPerStream := max dedupCapacityPerStream 1 }
  sourceDedup := { capacityPerStream := max maxSequenceBuffer 1 }
  maxSequenceBuffer := max maxSequenceBuffer 1

variable (p : FeedProcessor Level Key)

/-- The stream of a symbol; a new one is empty. -/
def streamOf (symbol : String) : BookStream Level := (p.streams symbol).getD (.new symbol)

/-- `process_book`. -/
def processBook (source : String) (update : SequencedBookUpdate Level) :
    Option (List (FeedOutput Level Key) × FeedProcessor Level Key) := do
  let (outputs, b) ←
    (p.streamOf update.symbol).processSourceBook p.maxSequenceBuffer source update
  some (outputs, { p with streams := Function.update p.streams update.symbol (some b) })

/-- `process_from` for a book update. A snapshot that a recovery waits for is processed even if it
was seen before. -/
def processFrom [DecidableEq Key] (source : String) (id : EventId Key)
    (update : SequencedBookUpdate Level) :
    Option (List (FeedOutput Level Key) × FeedProcessor Level Key) :=
  let (seen, dedup) := p.dedup.check id none
  let (seenHere, sourceDedup) := p.sourceDedup.check id (some source)
  let checked := { p with dedup, sourceDedup }
  let recoverySnapshot := update.action = .snapshot ∧ (p.streams update.symbol).any fun b =>
    b.aggregateRecovering || b.sources[source]?.any fun s => !s.isReady
  if seenHere = .duplicate ∧ ¬ recoverySnapshot then some ([.duplicate id], checked)
  else do
    let (outputs, next) ← checked.processBook source update
    some (outputs ++ if seen = .duplicate then [.duplicate id] else [], next)

/-- `mark_stale`, with the event of every stream that has become stale. -/
def markStale (nowMs maxAgeMs : ℕ) : (String → Option SystemEvent) × FeedProcessor Level Key :=
  (fun symbol => (p.streams symbol).bind fun b =>
      if b.published.status ≠ .stale ∧ (b.markStale nowMs maxAgeMs).published.status = .stale then
        some ⟨nowMs, .feedStale, symbol, s!"book exceeded max age of {maxAgeMs}ms"⟩
      else none,
    { p with streams := fun symbol => (p.streams symbol).map (·.markStale nowMs maxAgeMs) })

end FeedProcessor

/-- A call of the processor. -/
inductive Input (Level Key : Type) where
  | process (source : String) (id : EventId Key) (update : SequencedBookUpdate Level)
  | markStale (nowMs maxAgeMs : ℕ)

namespace FeedProcessor

/-- One call. -/
def step [DecidableEq Key] (p : FeedProcessor Level Key) :
    Input Level Key → Option (List (FeedOutput Level Key) × FeedProcessor Level Key)
  | .process source id update => p.processFrom source id update
  | .markStale nowMs maxAgeMs => some ([], (p.markStale nowMs maxAgeMs).2)

/-- A sequence of calls; `none` is a panic. -/
def run [DecidableEq Key] (p : FeedProcessor Level Key) (inputs : List (Input Level Key)) :
    Option (FeedProcessor Level Key) :=
  inputs.foldlM (fun p input => (p.step input).map Prod.snd) p

end FeedProcessor

/-! ### Connections -/

/-- Updates that start with a snapshot and continue one another since the last snapshot. -/
def Contiguous (updates : List (SequencedBookUpdate Level)) : Prop :=
  StartsWithSnapshot updates ∧ updates.IsChain Continues

/-- The book that updates make. -/
def replay (updates : List (SequencedBookUpdate Level)) : BookReducer Level :=
  updates.foldl applyBookUpdate { symbol := "" }

/-- A reducer that is ready has a valid book. -/
def BookReducer.Sound (r : BookReducer Level) : Prop :=
  r.isReady = true → ∃ book, r.book = some book ∧ book.isValid = true

/-- A connection whose state is made of delivered updates: while its tracker is ready, they are
contiguous and make its book. -/
structure Supplied (delivered : SequencedBookUpdate Level → Prop) (s : SourceBookStream Level) :
    Prop where
  sound : s.book.Sound
  buffered : ∀ u ∈ s.sequence.buffered, delivered u
  applied : ∃ updates, Tracks s.sequence updates.getLast? ∧ (s.sequence.status = .ready →
    Contiguous updates ∧ s.book = replay updates ∧ ∀ u ∈ updates, delivered u)

section

variable {r : BookReducer Level} {update : SequencedBookUpdate Level}
  {updates more : List (SequencedBookUpdate Level)} {s : SourceBookStream Level}
  {delivered later : SequencedBookUpdate Level → Prop}

theorem sound_applyBookUpdate (r : BookReducer Level) (update : SequencedBookUpdate Level) :
    (applyBookUpdate r update).Sound := by
  have hrdy (book : OrderBook Level)
      (h : (if book.isValid then BookStatus.ready else .empty) = .ready) : book.isValid = true := by
    by_contra hval
    simp [hval] at h
  unfold applyBookUpdate
  split
  · exact fun h => ⟨_, rfl, hrdy _ (of_decide_eq_true h)⟩
  · unfold BookReducer.applyDelta
    split_ifs
    · rintro ⟨⟩
    · split
      · rintro ⟨⟩
      · exact fun h => ⟨_, rfl, hrdy _ (of_decide_eq_true h)⟩

/-- A snapshot overwrites the book. -/
theorem foldl_eq_replay (h : StartsWithSnapshot updates) (r : BookReducer Level) :
    updates.foldl applyBookUpdate r = replay updates := by
  obtain ⟨first, hfst, hsna⟩ := h
  obtain ⟨rest, rfl⟩ := head?_eq_some_iff.mp hfst
  simp [replay, applyBookUpdate, hsna]

theorem Supplied.mono (h : Supplied delivered s) (hmono : ∀ u, delivered u → later u) :
    Supplied later s := by
  obtain ⟨updates, htra, hrdy⟩ := h.applied
  refine ⟨h.sound, fun u hu => hmono u (h.buffered u hu), updates, htra, fun hst => ?_⟩
  obtain ⟨hcon, hbook, hmem⟩ := hrdy hst
  exact ⟨hcon, hbook, fun u hu => hmono u (hmem u hu)⟩

/-- A connection that waits for a snapshot. -/
theorem supplied_of_waiting (hsou : s.book.Sound) (hst : s.sequence.status ≠ .ready)
    (hfits : s.sequence.buffered.length ≤ s.sequence.maxBuffered)
    (hbuf : ∀ u ∈ s.sequence.buffered, delivered u) : Supplied delivered s :=
  ⟨hsou, hbuf, [], ⟨hfits, (absurd · hst), (absurd · hst)⟩, (absurd · hst)⟩

theorem supplied_new (symbol : String) (maxSequenceBuffer : ℕ) :
    Supplied delivered (.new symbol maxSequenceBuffer) :=
  supplied_of_waiting (by rintro ⟨⟩) (by rintro ⟨⟩) (Nat.zero_le _)
    (by simp [SourceBookStream.new, SequenceTracker.new])

theorem supplied_lost (t : SequenceTracker Level) (r : BookReducer Level) :
    Supplied delivered ⟨t.requireRecovery, r.markRecovering⟩ :=
  supplied_of_waiting (by rintro ⟨⟩) (by rintro ⟨⟩) (Nat.zero_le _) (by simp [SequenceTracker.requireRecovery])

/-- What a received update says about the connection before and after it. -/
def Means (s s' : SourceBookStream Level) (update : SequencedBookUpdate Level) :
    Received Level → Prop
  | .candidate _ book => s'.isReady = true ∧ s'.book.book = some book ∧ book.isValid = true ∧
    (update.action = .snapshot ∨ s.sequence.status = .ready)
  | .lost _ => s'.sequence.status = .recovering
  | .nothing => s'.sequence.status = s.sequence.status ∧ s'.book = s.book

/-- An applied batch extends what the connection has applied, or replaces it. -/
theorem contiguous_of_answers {t' : SequenceTracker Level}
    (hcon : s.sequence.status = .ready → Contiguous updates ∧ s.book = replay updates)
    (htra : Tracks s.sequence updates.getLast?) (h : Answers s.sequence update t' (.apply more)) :
    ∃ all, Contiguous all ∧ Tracks t' all.getLast? ∧ all ⊆ updates ++ more ∧
      (s.sequence.status ≠ .ready → all = more) ∧
      more.foldl applyBookUpdate s.book = replay all := by
  obtain ⟨-, hch, haft, ⟨hsna, hhead⟩ | ⟨hrdy, rfl, hnum⟩⟩ := h
  · have hsta : StartsWithSnapshot more := ⟨update, hhead, hsna⟩
    exact ⟨more, ⟨hsta, hch⟩, haft, subset_append_right .., fun _ => rfl, foldl_eq_replay hsta _⟩
  · obtain ⟨⟨⟨first, hfst, hsna⟩, hch'⟩, hbook⟩ := hcon hrdy
    obtain ⟨last, hlast, hcur⟩ := htra.current hrdy
    refine ⟨updates ++ [update], ⟨⟨first, by simp [hfst], hsna⟩, ?_⟩, by simpa using haft,
      List.Subset.refl _, absurd hrdy, by rw [hbook]; simp [replay]⟩
    refine isChain_append.mpr ⟨hch', .singleton _, fun a ha b hb => .inr ?_⟩
    obtain rfl : last = a := Option.some.inj (hlast.symm.trans ha)
    obtain rfl : update = b := by simpa using hb
    exact Option.some.inj (hnum.symm.trans hcur)

/-- **What a connection makes of an update.** -/
theorem receive_spec (h : Supplied delivered s) (hupd : delivered update) (source : String) :
    ∃ received s', s.receive source update = some (received, s') ∧ Supplied delivered s' ∧
      Means s s' update received := by
  obtain ⟨updates, htra, hrdy⟩ := h.applied
  obtain ⟨outcome, t', hrun, hans, -⟩ := onUpdate_answers htra update
  obtain ⟨hkept, hbat⟩ := onUpdate_subset hrun
  have hmem (u : SequencedBookUpdate Level) (hu : u ∈ update :: s.sequence.buffered) :
      delivered u := by
    rcases mem_cons.mp hu with rfl | hu
    · exact hupd
    · exact h.buffered u hu
  have hbuf : ∀ u ∈ t'.buffered, delivered u := fun u hu => hmem u (hkept hu)
  unfold SourceBookStream.receive
  simp only [hrun, Option.bind_eq_bind, Option.bind_some]
  cases outcome with
  | duplicate =>
    obtain rfl : t' = s.sequence := hans
    exact ⟨_, _, rfl, h, rfl, rfl⟩
  | buffered =>
    obtain ⟨hbef, haft, hfits⟩ := hans
    exact ⟨_, _, rfl, supplied_of_waiting h.sound (by simp [haft]) hfits hbuf,
      haft.trans hbef.symm, rfl⟩
  | recoveryRequired =>
    obtain ⟨haft, hfits⟩ := hans
    exact ⟨_, _, rfl, supplied_of_waiting (by rintro ⟨⟩) (by simp [haft]) hfits hbuf, haft⟩
  | recoveryFailed => exact ⟨_, _, rfl, supplied_lost t' _, rfl⟩
  | apply more =>
    have hmore := hbat more rfl
    obtain ⟨all, hall, htra', hsub, hfr, hbook⟩ :=
      contiguous_of_answers (fun hst => ⟨(hrdy hst).1, (hrdy hst).2.1⟩) htra hans
    have hdel : ∀ u ∈ all, delivered u := by
      intro u hu
      by_cases hst : s.sequence.status = .ready
      · rcases mem_append.mp (hsub hu) with hu | hu
        · exact (hrdy hst).2.2 u hu
        · exact hmem u (hmore hu)
      · exact hmem u (hmore (hfr hst ▸ hu))
    obtain ⟨hst, -, htraMor, hstart⟩ := hans
    obtain ⟨last, hlast, -⟩ := htraMor.current hst
    have hsou : (more.foldl applyBookUpdate s.book).Sound :=
      foldlRecOn more _ h.sound fun _ _ _ _ => sound_applyBookUpdate _ _
    simp only [hlast, Option.map_some, Option.bind_some]
    split_ifs with hval
    · obtain ⟨book, hsome, hbooVal⟩ := hsou hval
      simp only [hsome, Option.bind_some]
      refine ⟨_, _, rfl, ⟨hsou, hbuf, all, htra', fun _ => ⟨hall, hbook, hdel⟩⟩,
        ?_, hsome, hbooVal, hstart.imp And.left And.left⟩
      simp [SourceBookStream.isReady, hst, hval]
    · exact ⟨_, _, rfl, supplied_lost t' _, rfl⟩

end

end

/-! ### The canonical book -/

/-- All connections wait for a snapshot. -/
def Waiting (b : BookStream Level) : Prop :=
  ∀ (source : String) (s : SourceBookStream Level), b.sources[source]? = some s →
    s.sequence.status ≠ .ready

/-- The version that may follow a published one. -/
def BookVersion.Follows (old new : BookVersion) : Prop :=
  old.tsMs ≤ new.tsMs ∧ (old.tsMs = new.tsMs → new.prevSeqId = old.seqId)

/-- The connections disagree. -/
def Conflicts (outputs : List (FeedOutput Level Key)) : Prop :=
  ∃ event, .system event ∈ outputs ∧ event.reason = conflictNotice

/-- What an update does to a stream. -/
structure Effect (b : BookStream Level) (source : String) (update : SequencedBookUpdate Level)
    (outputs : List (FeedOutput Level Key)) (b' : BookStream Level) : Prop where
  /-- A published book is that of the connection, which is ready, as the stream is. -/
  depth : ∀ book, .depth book ∈ outputs → b'.isReady = true ∧
    ∃ s, b'.sources[source]? = some s ∧ s.isReady = true ∧ s.book.book = some book
  /-- It follows the last one unless the stream was recovering. -/
  follows : ∀ book, .depth book ∈ outputs → ∃ v, b'.publishedVersion = some v ∧
    (b.aggregateRecovering = false → ∀ v₀, b.publishedVersion = some v₀ → v₀.Follows v)
  kept : (∀ book, .depth book ∉ outputs) → b'.publishedVersion = b.publishedVersion
  /-- Without a snapshot, connections that wait go on waiting, and nothing is published. -/
  waits : update.action ≠ .snapshot → Waiting b → Waiting b' ∧ ∀ book, .depth book ∉ outputs
  conflict : Conflicts outputs → Waiting b'

section

variable {delivered : String → SequencedBookUpdate Level → Prop} {b b' : BookStream Level}
  {source : String} {s : SourceBookStream Level} {update : SequencedBookUpdate Level}
  {outputs : List (FeedOutput Level Key)}

theorem isReady_iff : b.isReady = true ↔ b.aggregateRecovering = false ∧
    b.published.isReady = true ∧ ∃ (source : String) (s : SourceBookStream Level),
      b.sources[source]? = some s ∧ s.isReady = true := by
  simp only [BookStream.isReady, Bool.and_eq_true, Bool.not_eq_true', any_eq_true,
    OrderedMap.mem_valueList, and_assoc]
  refine and_congr_right fun _ => and_congr_right fun _ => ⟨?_, ?_⟩
  · rintro ⟨s, ⟨source, hget⟩, hrdy⟩
    exact ⟨source, s, hget, hrdy⟩
  · rintro ⟨source, s, hget, hrdy⟩
    exact ⟨s, ⟨source, hget⟩, hrdy⟩

theorem getElem?_setSource (b : BookStream Level) (source other : String)
    (s : SourceBookStream Level) :
    (b.setSource source s).sources[other]? = if source = other then some s else b.sources[other]? :=
  OrderedMap.getElem?_insert_eq ..

/-- A waiting connection among waiting ones. -/
theorem waiting_setSource (h : Waiting b) (hs : s.sequence.status ≠ .ready) :
    Waiting (b.setSource source s) := by
  intro other s' hget
  rw [getElem?_setSource] at hget
  split_ifs at hget
  · cases hget
    exact hs
  · exact h other s' hget

theorem notice_ne (source reason : String) :
    "source " ++ source ++ ": " ++ reason ≠ conflictNotice ∧
      "request a fresh websocket snapshot from source " ++ source ≠ conflictNotice := by
  constructor
  · intro h
    have hchar := congrArg (fun text => text.toList[0]?) h
    simp [conflictNotice] at hchar
  · intro h
    have hchar := congrArg (fun text => text.toList[8]?) h
    simp [conflictNotice] at hchar

theorem waiting_sourceOf (h : Waiting b) (maxSequenceBuffer : ℕ) (source symbol : String) :
    (b.sourceOf maxSequenceBuffer source symbol).sequence.status ≠ .ready := by
  unfold BookStream.sourceOf
  cases hget : b.sources[source]? with
  | none => rintro ⟨⟩
  | some s => exact h source s hget

/-- A stream that is ready stays ready if its connection does. -/
theorem ready_setSource (h : b.isReady = true)
    (hs : ∀ s', b.sources[source]? = some s' → s'.isReady = true → s.isReady = true) :
    (b.setSource source s).isReady = true := by
  obtain ⟨hrec, hpub, other, s', hget, hrdy⟩ := isReady_iff.mp h
  refine isReady_iff.mpr ⟨hrec, hpub, ?_⟩
  by_cases hoth : source = other
  · subst hoth
    exact ⟨source, s, by rw [getElem?_setSource, if_pos rfl], hs s' hget hrdy⟩
  · exact ⟨other, s', by rwa [getElem?_setSource, if_neg hoth], hrdy⟩

/-- An update that publishes nothing. -/
theorem Effect.quiet (hdep : ∀ book, .depth book ∉ outputs)
    (hver : b'.publishedVersion = b.publishedVersion)
    (hwait : update.action ≠ .snapshot → Waiting b → Waiting b')
    (hcon : Conflicts outputs → Waiting b') : Effect b source update outputs b' :=
  ⟨fun book h => absurd h (hdep book), fun book h => absurd h (hdep book), fun _ => hver,
    fun hact hwai => ⟨hwait hact hwai, hdep⟩, hcon⟩

/-- Notices of duplicates change nothing. -/
theorem Effect.append {b' : BookStream Level} (h : Effect b source update outputs b')
    (id : EventId Key) (seen : Prop) [Decidable seen] :
    Effect b source update (outputs ++ if seen then [.duplicate id] else []) b' := by
  obtain ⟨hdep, hfol, hkept, hwai, hcon⟩ := h
  split_ifs
  · have hbook (book : OrderBook Level) :
        FeedOutput.depth book ∈ outputs ++ [.duplicate id] ↔ .depth book ∈ outputs := by simp
    have hsys : Conflicts (outputs ++ [.duplicate id]) ↔ Conflicts outputs := by simp [Conflicts]
    constructor <;> simpa only [hbook, hsys]
  · rw [append_nil]
    exact ⟨hdep, hfol, hkept, hwai, hcon⟩

variable [BookLevels Level]

/-- A stream whose connections are supplied, and whose canonical book, once published, is ready
unless the stream is recovering. -/
structure Healthy (delivered : String → SequencedBookUpdate Level → Prop) (b : BookStream Level) :
    Prop where
  supplied : ∀ source s, b.sources[source]? = some s → Supplied (delivered source) s
  ready : b.aggregateRecovering = false → b.publishedVersion ≠ none → b.isReady = true

theorem Healthy.sourceOf (h : Healthy delivered b) (maxSequenceBuffer : ℕ)
    (source symbol : String) :
    Supplied (delivered source) (b.sourceOf maxSequenceBuffer source symbol) := by
  unfold BookStream.sourceOf
  cases hget : b.sources[source]? with
  | none => exact supplied_new symbol maxSequenceBuffer
  | some s => exact h.supplied source s hget

theorem supplied_setSource (h : Healthy delivered b) (hs : Supplied (delivered source) s)
    (other : String) (s' : SourceBookStream Level)
    (hget : (b.setSource source s).sources[other]? = some s') : Supplied (delivered other) s' := by
  rw [getElem?_setSource] at hget
  split_ifs at hget with hoth
  · cases hget
    exact hoth ▸ hs
  · exact h.supplied other s' hget

theorem publishCandidate_cases (b : BookStream Level) (version : BookVersion)
    (candidate : OrderBook Level) :
    (b.publishCandidate version candidate = (.published, b.replacePublished version candidate) ∧
      (b.aggregateRecovering = false → ∀ v₀, b.publishedVersion = some v₀ → v₀.Follows version)) ∨
    b.publishCandidate version candidate = (.ignored, b) ∨
    b.publishCandidate version candidate = (.conflict, b) := by
  unfold BookStream.publishCandidate
  split
  · rename_i current hrec hver
    have hfol (h : current.Follows version) : b.aggregateRecovering = false →
          ∀ v₀, b.publishedVersion = some v₀ → v₀.Follows version := by
      rintro - v₀ hv₀
      cases hver.symm.trans hv₀
      exact h
    split_ifs with hold hnew
    · exact .inr (.inl rfl)
    · exact .inl ⟨rfl, hfol ⟨hnew.le, fun heq => absurd heq hnew.ne⟩⟩
    · exact .inr (.inl rfl)
    · exact .inr (.inr rfl)
    · rename_i hnext
      exact .inl ⟨rfl, hfol ⟨not_lt.mp hold, fun _ => hnext⟩⟩
    · exact .inr (.inl rfl)
    · exact .inr (.inr rfl)
  · rename_i hoth
    refine .inl ⟨rfl, fun hrec v₀ hv₀ => (hoth v₀ hrec hv₀).elim⟩

/-- A connection that has lost its book. -/
theorem sourceRecoveryOutputs_spec (hsup : ∀ other s', (b.setSource source s).sources[other]? =
      some s' → Supplied (delivered other) s') (hs : s.sequence.status = .recovering)
    (symbol : String) (recovery : SourceRecovery) :
    ∃ (outputs : List (FeedOutput Level Key)) (b' : BookStream Level),
      (b.setSource source s).sourceRecoveryOutputs symbol recovery = (outputs, b') ∧
      Healthy delivered b' ∧ Effect b source update outputs b' := by
  have hwait : update.action ≠ .snapshot → Waiting b → Waiting (b.setSource source s) :=
    fun _ hwai => waiting_setSource hwai (by simp [hs])
  by_cases hrdy : (b.setSource source s).isReady = true
  · refine ⟨_, _, if_pos hrdy, ⟨hsup, fun _ _ => hrdy⟩, ?_⟩
    exact .quiet (by simp) rfl hwait (by simp [Conflicts])
  · refine ⟨_, _, if_neg hrdy, ⟨hsup, by rintro ⟨⟩⟩, .quiet ?_ rfl hwait ?_⟩
    · split_ifs <;> simp
    · obtain ⟨hsou, hreq⟩ := notice_ne recovery.sourceConnId recovery.reason
      rintro ⟨event, hmem, hrea⟩
      have hev : event.reason = "source " ++ recovery.sourceConnId ++ ": " ++ recovery.reason ∨
          event.reason =
            "request a fresh websocket snapshot from source " ++ recovery.sourceConnId := by
        split_ifs at hmem <;> simp at hmem <;> grind
      rcases hev with h | h
      · exact absurd (h.symm.trans hrea) hsou
      · exact absurd (h.symm.trans hrea) hreq

/-- **What one update does to the canonical book.** -/
theorem processSourceBook_spec (h : Healthy delivered b) (hupd : delivered source update)
    (maxSequenceBuffer : ℕ) : ∃ (outputs : List (FeedOutput Level Key)) (b' : BookStream Level),
      b.processSourceBook maxSequenceBuffer source update = some (outputs, b') ∧
      Healthy delivered b' ∧ Effect b source update outputs b' := by
  obtain ⟨received, s, hrun, hs, hmea⟩ :=
    receive_spec (h.sourceOf maxSequenceBuffer source update.symbol) hupd source
  have hsup := supplied_setSource h hs
  unfold BookStream.processSourceBook
  simp only [hrun, Option.bind_eq_bind, Option.bind_some]
  cases received with
  | nothing =>
    obtain ⟨hst, hbook⟩ := hmea
    refine ⟨_, _, rfl, ⟨hsup, fun hrec hver => ?_⟩, .quiet (by simp) rfl ?_ ?_⟩
    · refine ready_setSource (h.ready hrec hver) fun s' hget hrdy => ?_
      have hsame : b.sourceOf maxSequenceBuffer source update.symbol = s' := by
        rw [BookStream.sourceOf, hget, Option.getD_some]
      rwa [SourceBookStream.isReady, hst, hbook, hsame]
    · intro _ hwai
      exact waiting_setSource hwai (hst ▸ waiting_sourceOf hwai _ _ _)
    · simp [Conflicts]
  | lost recovery =>
    obtain ⟨outputs, b', heq, hspec⟩ := sourceRecoveryOutputs_spec hsup hmea update.symbol recovery
    exact ⟨outputs, b', congrArg some heq, hspec⟩
  | candidate version candidate =>
    obtain ⟨hrdy, hbook, hval, hstart⟩ := hmea
    have hself : (b.setSource source s).sources[source]? = some s := by
      rw [getElem?_setSource, if_pos rfl]
    -- connections that wait have no candidate without a snapshot
    have hnev (hact : update.action ≠ .snapshot) (hwai : Waiting b) : False :=
      waiting_sourceOf hwai maxSequenceBuffer source update.symbol (hstart.resolve_left hact)
    rcases publishCandidate_cases (b.setSource source s) version candidate with
      ⟨hdec, hfol⟩ | hdec | hdec
    · have hpub : ((b.setSource source s).replacePublished version candidate).isReady = true := by
        refine isReady_iff.mpr ⟨rfl, ?_, source, s, hself, hrdy⟩
        simp [BookStream.replacePublished, BookReducer.applySnapshot, BookReducer.isReady, hval]
      simp only [hdec]
      refine ⟨_, _, rfl, ⟨hsup, fun _ _ => hpub⟩, ⟨fun book hdep => ?_,
        fun _ _ => ⟨version, rfl, hfol⟩, fun hnone => ?_,
        fun hact hwai => (hnev hact hwai).elim, ?_⟩⟩
      · obtain rfl : book = candidate := by
          simp only [BookStream.publishedOutputs] at hdep
          split_ifs at hdep <;>
            simpa [BookStream.replacePublished, BookReducer.applySnapshot] using hdep
        exact ⟨hpub, s, hself, hrdy, hbook⟩
      · refine absurd ?_ (hnone candidate)
        simp [BookStream.publishedOutputs, BookStream.replacePublished, BookReducer.applySnapshot]
      · rintro ⟨event, hmem, hrea⟩
        simp only [BookStream.publishedOutputs] at hmem
        split_ifs at hmem <;> simp [conflictNotice] at hmem hrea <;> grind
    · simp only [hdec]
      refine ⟨_, _, rfl, ⟨hsup, fun hrec hver => ?_⟩, .quiet (by simp) rfl
        (fun hact hwai => (hnev hact hwai).elim) (by simp [Conflicts])⟩
      exact ready_setSource (h.ready hrec hver) fun _ _ _ => hrdy
    · have hwai : Waiting ((b.setSource source s).replicaConflictOutputs update.symbol
          update.tsMs version : List (FeedOutput Level Key) × BookStream Level).2 := by
        intro other s' hget
        simp only [BookStream.replicaConflictOutputs, OrderedMap.getElem?_map_eq] at hget
        obtain ⟨_, -, rfl⟩ := Option.map_eq_some_iff.mp hget
        rintro ⟨⟩
      simp only [hdec]
      refine ⟨_, _, rfl, ⟨fun other s' hget => ?_, by rintro ⟨⟩⟩,
        .quiet ?_ rfl (fun _ _ => hwai) fun _ => hwai⟩
      · simp only [OrderedMap.getElem?_map_eq] at hget
        obtain ⟨_, -, rfl⟩ := Option.map_eq_some_iff.mp hget
        exact supplied_lost _ _
      · simp

end

/-! ### Runs -/

namespace Input

/-- The stream that a call concerns. -/
def symbol? : Input Level Key → Option String
  | .process _ _ update => some update.symbol
  | .markStale .. => none

/-- A call that delivers a snapshot of the symbol. -/
def Brings (symbol : String) : Input Level Key → Prop
  | .process _ _ update => update.symbol = symbol ∧ update.action = .snapshot
  | .markStale .. => False

end Input

/-- The update was delivered by the connection, for the symbol. -/
def Delivered (inputs : List (Input Level Key)) (symbol source : String)
    (update : SequencedBookUpdate Level) : Prop :=
  update.symbol = symbol ∧ ∃ id, .process source id update ∈ inputs

/-- What a call does to the stream of a symbol. -/
inductive Moves (p : FeedProcessor Level Key) (symbol : String) :
    Input Level Key → List (FeedOutput Level Key) → FeedProcessor Level Key → Prop where
  /-- It concerns another stream, or an update that was seen before. -/
  | same {input : Input Level Key} {outputs : List (FeedOutput Level Key)}
      {p' : FeedProcessor Level Key} (hsame : p'.streams symbol = p.streams symbol)
      (hquiet : input.symbol? = some symbol → ∀ output ∈ outputs, ∃ id, output = .duplicate id) :
      Moves p symbol input outputs p'
  | book {source : String} {id : EventId Key} {update : SequencedBookUpdate Level}
      {outputs : List (FeedOutput Level Key)} {p' : FeedProcessor Level Key} (b' : BookStream Level)
      (hsymbol : update.symbol = symbol) (hget : p'.streams symbol = some b')
      (heffect : Effect (p.streamOf symbol) source update outputs b') :
      Moves p symbol (.process source id update) outputs p'
  | stale {nowMs maxAgeMs : ℕ} {p' : FeedProcessor Level Key} (b : BookStream Level)
      (hget : p.streams symbol = some b)
      (hget' : p'.streams symbol = some (b.markStale nowMs maxAgeMs)) :
      Moves p symbol (.markStale nowMs maxAgeMs) [] p'

section

variable {inputs : List (Input Level Key)} {p p' p₁ p₂ p₃ : FeedProcessor Level Key}
  {symbol : String} {input : Input Level Key} {outputs : List (FeedOutput Level Key)}
  {b : BookStream Level} {source : String} {update : SequencedBookUpdate Level}

theorem streamOf_eq (hget : p.streams symbol = some b) : p.streamOf symbol = b := by
  rw [FeedProcessor.streamOf, hget, Option.getD_some]

theorem Delivered.append (h : Delivered inputs symbol source update) (input : Input Level Key) :
    Delivered (inputs ++ [input]) symbol source update :=
  ⟨h.1, h.2.imp fun _ hmem => mem_append_left _ hmem⟩

/-- A call that publishes processes an update of the symbol. -/
theorem Moves.published {book : OrderBook Level} (h : Moves p symbol input outputs p')
    (hsym : input.symbol? = some symbol) (hdep : .depth book ∈ outputs) :
    ∃ source id update b', input = .process source id update ∧ update.symbol = symbol ∧
      p'.streams symbol = some b' ∧ Effect (p.streamOf symbol) source update outputs b' := by
  cases h with
  | same _ hqui =>
    obtain ⟨id, hid⟩ := hqui hsym _ hdep
    cases hid
  | book b' heq hget heff => exact ⟨_, _, _, b', rfl, heq, hget, heff⟩
  | stale => cases hsym

variable [BookLevels Level]

/-- All streams are healthy. -/
def Inv (inputs : List (Input Level Key)) (p : FeedProcessor Level Key) : Prop :=
  ∀ symbol b, p.streams symbol = some b → Healthy (Delivered inputs symbol) b

theorem Inv.streamOf (h : Inv inputs p) (symbol : String) :
    Healthy (Delivered inputs symbol) (p.streamOf symbol) := by
  unfold FeedProcessor.streamOf
  cases hget : p.streams symbol with
  | none =>
    refine ⟨fun source s hs => ?_, fun _ h => absurd rfl h⟩
    simp [BookStream.new] at hs
  | some b => exact h symbol b hget

variable [DecidableEq Key]

namespace FeedProcessor

/-- A call publishes this version of the symbol's book. -/
def Publishes (symbol : String) (v : BookVersion) (p p' : FeedProcessor Level Key) : Prop :=
  ∃ input outputs book b, p.step input = some (outputs, p') ∧ input.symbol? = some symbol ∧
    .depth book ∈ outputs ∧ p'.streams symbol = some b ∧ b.publishedVersion = some v

/-- A call publishes nothing for the symbol and leaves it not recovering. -/
def Undisturbed (symbol : String) (p p' : FeedProcessor Level Key) : Prop :=
  ∃ input outputs, p.step input = some (outputs, p') ∧
    (input.symbol? = some symbol → ∀ book, .depth book ∉ outputs) ∧
    ∀ b, p'.streams symbol = some b → b.aggregateRecovering = false

/-- A call in which the connections of the symbol disagree. -/
def Disagrees (symbol : String) (p p' : FeedProcessor Level Key) : Prop :=
  ∃ input outputs, p.step input = some (outputs, p') ∧ input.symbol? = some symbol ∧
    Conflicts outputs

/-- A call that delivers no snapshot of the symbol. -/
def Unsupplied (symbol : String) (p p' : FeedProcessor Level Key) : Prop :=
  ∃ input outputs, p.step input = some (outputs, p') ∧ ¬ input.Brings symbol

end FeedProcessor

open FeedProcessor

/-- The canonical books after a run, and what any continuation does. -/
structure Canonical (inputs : List (Input Level Key)) (p : FeedProcessor Level Key) : Prop where
  /-- A published book is ready unless its stream is recovering, and so is some connection. -/
  ready : ∀ symbol b, p.streams symbol = some b → b.aggregateRecovering = false →
    b.publishedVersion ≠ none → b.published.isReady = true ∧
      ∃ (source : String) (s : SourceBookStream Level),
        b.sources[source]? = some s ∧ s.isReady = true
  /-- A published book is that of a connection with contiguous updates, and its stream is ready. -/
  depth : ∀ input outputs p' book, p.step input = some (outputs, p') → .depth book ∈ outputs →
    ∃ source id update b updates, ∃ s : SourceBookStream Level,
      input = .process source id update ∧ p'.streams update.symbol = some b ∧ b.isReady = true ∧
      b.sources[source]? = some s ∧ s.book.book = some book ∧ s.book = replay updates ∧
      Contiguous updates ∧ ∀ u ∈ updates, Delivered (inputs ++ [input]) update.symbol source u
  /-- Versions follow one another while there is no recovery. -/
  ordered : ∀ symbol v v' p₁ p₂ p₃, Publishes symbol v p p₁ →
    Relation.ReflTransGen (Undisturbed symbol) p₁ p₂ → Publishes symbol v' p₂ p₃ → v.Follows v'
  /-- After a disagreement nothing is published before a snapshot is delivered. -/
  conflict : ∀ symbol p₁ p₂ input outputs p₃, Disagrees symbol p p₁ →
    Relation.ReflTransGen (Unsupplied symbol) p₁ p₂ → p₂.step input = some (outputs, p₃) →
    ¬ input.Brings symbol → input.symbol? = some symbol → ∀ book, .depth book ∉ outputs

/-- **What a call does.** -/
theorem step_spec (h : Inv inputs p) (input : Input Level Key) :
    ∃ outputs p', p.step input = some (outputs, p') ∧ Inv (inputs ++ [input]) p' ∧
      ∀ symbol, Moves p symbol input outputs p' := by
  have hlat : Inv (inputs ++ [input]) p := fun symbol b hget =>
    ⟨fun source s hs => ((h symbol b hget).supplied source s hs).mono fun _ hu => hu.append input,
      (h symbol b hget).ready⟩
  cases input with
  | markStale =>
    refine ⟨[], _, rfl, fun symbol b' hget => ?_, fun symbol => ?_⟩
    · obtain ⟨b, hb, rfl⟩ := Option.map_eq_some_iff.mp hget
      have hb := hlat symbol b hb
      refine ⟨hb.supplied, fun hrec hver => ?_⟩
      simp only [BookStream.markStale, Bool.or_eq_false_iff] at hrec
      obtain ⟨-, hpub, hsou⟩ := isReady_iff.mp (hb.ready hrec.1 hver)
      refine isReady_iff.mpr ⟨by simpa [BookStream.markStale] using hrec, ?_, hsou⟩
      have hrdy := of_decide_eq_true hpub
      unfold BookReducer.markStaleIfOlderThan at hrec
      split_ifs at hrec with hsta
      · simp [hrdy] at hrec
      · rwa [BookStream.markStale, BookReducer.markStaleIfOlderThan, if_neg hsta]
    · cases hget : p.streams symbol with
      | none => exact .same (by simp [FeedProcessor.markStale, hget]) (by simp)
      | some b => exact .stale b hget (by simp [FeedProcessor.markStale, hget])
  | process source id update =>
    unfold FeedProcessor.step FeedProcessor.processFrom
    dsimp only
    by_cases hdro : (p.sourceDedup.check id (some source)).1 = .duplicate ∧
        ¬ (update.action = .snapshot ∧ (p.streams update.symbol).any fun b =>
          b.aggregateRecovering || b.sources[source]?.any fun s => !s.isReady)
    · rw [if_pos hdro]
      exact ⟨_, _, rfl, hlat, fun symbol => .same rfl (by simp)⟩
    · rw [if_neg hdro]
      obtain ⟨(outputs : List (FeedOutput Level Key)), b', hrun, hhea, heff⟩ :=
        processSourceBook_spec (hlat.streamOf update.symbol)
          ⟨rfl, id, mem_append_right _ (mem_singleton_self _)⟩ p.maxSequenceBuffer
      have hstr (q : FeedProcessor Level Key) (hq : q.streams = p.streams) :
          q.streamOf update.symbol = p.streamOf update.symbol := by
        rw [FeedProcessor.streamOf, FeedProcessor.streamOf, hq]
      simp only [FeedProcessor.processBook, hstr, hrun, Option.bind_eq_bind, Option.bind_some]
      refine ⟨_, _, rfl, fun symbol b hget => ?_, fun symbol => ?_⟩
      · by_cases hsym : symbol = update.symbol
        · subst hsym
          cases (update_self update.symbol (some b') p.streams).symm.trans hget
          exact hhea
        · exact hlat symbol b ((update_of_ne hsym ..).symm.trans hget)
      · by_cases hsym : symbol = update.symbol
        · subst hsym
          exact .book b' rfl (update_self ..) (heff.append id _)
        · refine .same (update_of_ne hsym ..) fun heq => ?_
          exact absurd (Option.some.inj heq).symm hsym

theorem moves_of_step (h : Inv inputs p) (hstep : p.step input = some (outputs, p')) :
    Inv (inputs ++ [input]) p' ∧ ∀ symbol, Moves p symbol input outputs p' := by
  obtain ⟨outputs', q, hrun, hinv, hmov⟩ := step_spec h input
  cases hstep.symm.trans hrun
  exact ⟨hinv, hmov⟩

/-- The version stays while nothing is published. -/
theorem version_of_undisturbed {v : BookVersion} (h : Inv inputs p₁)
    (hget : p₁.streams symbol = some b) (hver : b.publishedVersion = some v)
    (hrdy : b.aggregateRecovering = false)
    (hpath : Relation.ReflTransGen (Undisturbed symbol) p₁ p₂) :
    ∃ inputs b₂, Inv inputs p₂ ∧ p₂.streams symbol = some b₂ ∧ b₂.publishedVersion = some v ∧
      b₂.aggregateRecovering = false := by
  induction hpath with
  | refl => exact ⟨inputs, b, h, hget, hver, hrdy⟩
  | @tail q q' _ hstep ih =>
    obtain ⟨inputs, b₁, hinv, hget₁, hver₁, -⟩ := ih
    obtain ⟨input, outputs, hrun, hqui, hrec⟩ := hstep
    obtain ⟨hinv', hmov⟩ := moves_of_step hinv hrun
    have hnext : ∃ b', q'.streams symbol = some b' ∧ b'.publishedVersion = some v := by
      cases hmov symbol with
      | same hsame => exact ⟨b₁, hsame.trans hget₁, hver₁⟩
      | book b' hsym hget' heff =>
        refine ⟨b', hget', (heff.kept (hqui (congrArg some hsym))).trans ?_⟩
        rwa [streamOf_eq hget₁]
      | stale _ hb' hget' =>
        cases hget₁.symm.trans hb'
        exact ⟨_, hget', hver₁⟩
    obtain ⟨b', hget', hver'⟩ := hnext
    exact ⟨_, b', hinv', hget', hver', hrec b' hget'⟩

/-- Connections that wait go on waiting while no snapshot is delivered. -/
theorem waiting_of_unsupplied (h : Inv inputs p₁) (hget : p₁.streams symbol = some b)
    (hwai : Waiting b) (hpath : Relation.ReflTransGen (Unsupplied symbol) p₁ p₂) :
    ∃ inputs b₂, Inv inputs p₂ ∧ p₂.streams symbol = some b₂ ∧ Waiting b₂ := by
  induction hpath with
  | refl => exact ⟨inputs, b, h, hget, hwai⟩
  | @tail q q' _ hstep ih =>
    obtain ⟨inputs, b₁, hinv, hget₁, hwai₁⟩ := ih
    obtain ⟨input, outputs, hrun, hbri⟩ := hstep
    obtain ⟨hinv', hmov⟩ := moves_of_step hinv hrun
    cases hmov symbol with
    | same hsame => exact ⟨_, b₁, hinv', hsame.trans hget₁, hwai₁⟩
    | book b' hsym hget' heff =>
      exact ⟨_, b', hinv', hget',
        (heff.waits (fun hact => hbri ⟨hsym, hact⟩) (streamOf_eq hget₁ ▸ hwai₁)).1⟩
    | stale _ hb' hget' =>
      cases hget₁.symm.trans hb'
      exact ⟨_, _, hinv', hget', hwai₁⟩

theorem Inv.canonical (h : Inv inputs p) : Canonical inputs p where
  ready symbol b hget hrec hver :=
    (isReady_iff.mp ((h symbol b hget).ready hrec hver)).2
  depth input outputs p' book hrun hdep := by
    obtain ⟨hinv, hmov⟩ := moves_of_step h hrun
    cases hsym : input.symbol? with
    | none =>
      cases input with
      | process => cases hsym
      | markStale =>
        cases hrun
        cases hdep
    | some symbol =>
      obtain ⟨source, id, update, b', rfl, rfl, hget, heff⟩ := (hmov symbol).published hsym hdep
      obtain ⟨hrdy, s, hs, hsre, hbook⟩ := heff.depth book hdep
      obtain ⟨updates, -, happ⟩ := ((hinv _ b' hget).supplied source s hs).applied
      simp only [SourceBookStream.isReady, Bool.and_eq_true, decide_eq_true_eq] at hsre
      obtain ⟨hcont, hrep, hdel⟩ := happ hsre.1
      exact ⟨source, id, update, b', updates, s, rfl, hget, hrdy, hs, hbook, hrep, hcont, hdel⟩
  ordered symbol v v' p₁ p₂ p₃ hfst hpath hsnd := by
    obtain ⟨input, outputs, book, b, hrun, hsym, hdep, hget, hver⟩ := hfst
    obtain ⟨hinv, hmov⟩ := moves_of_step h hrun
    obtain ⟨_, _, _, b', -, -, hget', heff⟩ := (hmov symbol).published hsym hdep
    cases hget.symm.trans hget'
    have hrdy := (isReady_iff.mp (heff.depth book hdep).1).1
    obtain ⟨inputs₂, b₂, hinv₂, hget₂, hver₂, hrdy₂⟩ :=
      version_of_undisturbed hinv hget hver hrdy hpath
    obtain ⟨input, outputs, book, b₃, hrun, hsym, hdep, hget₃, hver₃⟩ := hsnd
    obtain ⟨_, _, _, b', -, -, hget', heff⟩ :=
      ((moves_of_step hinv₂ hrun).2 symbol).published hsym hdep
    cases hget₃.symm.trans hget'
    obtain ⟨w, hw, hfol⟩ := heff.follows book hdep
    cases hver₃.symm.trans hw
    rw [streamOf_eq hget₂] at hfol
    exact hfol hrdy₂ v hver₂
  conflict symbol p₁ p₂ input outputs p₃ hdis hpath hrun hbri hsym book hdep := by
    obtain ⟨input₀, outputs₀, hrun₀, hsym₀, hcon⟩ := hdis
    obtain ⟨hinv, hmov⟩ := moves_of_step h hrun₀
    have hwai : ∃ b, p₁.streams symbol = some b ∧ Waiting b := by
      cases hmov symbol with
      | same _ hqui =>
        obtain ⟨event, hmem, -⟩ := hcon
        obtain ⟨id, hid⟩ := hqui hsym₀ _ hmem
        cases hid
      | book b' _ hget heff => exact ⟨b', hget, heff.conflict hcon⟩
      | stale => cases hsym₀
    obtain ⟨b, hget, hwai⟩ := hwai
    obtain ⟨inputs₂, b₂, hinv₂, hget₂, hwai₂⟩ := waiting_of_unsupplied hinv hget hwai hpath
    obtain ⟨source, id, update, b', rfl, heq, -, heff⟩ :=
      ((moves_of_step hinv₂ hrun).2 symbol).published hsym hdep
    obtain ⟨-, hnone⟩ := heff.waits (fun hact => hbri ⟨heq, hact⟩) (streamOf_eq hget₂ ▸ hwai₂)
    exact hnone book hdep

/-- Every run keeps the streams healthy. -/
theorem Inv.run (h : Inv inputs p) (more : List (Input Level Key)) :
    ∃ p', p.run more = some p' ∧ Inv (inputs ++ more) p' := by
  induction more generalizing inputs p with
  | nil => exact ⟨p, rfl, by rwa [append_nil]⟩
  | cons input _ ih =>
    obtain ⟨outputs, q, hstep, hinv, -⟩ := step_spec h input
    obtain ⟨p', hrun, hlast⟩ := ih hinv
    refine ⟨p', ?_, by rwa [append_assoc, singleton_append] at hlast⟩
    rw [FeedProcessor.run, foldlM_cons, hstep]
    exact hrun

end

/-- **The canonical book is published only from a healthy replica.** No run panics, and after every
run the published books and all their continuations are canonical. -/
theorem canonical_books [BookLevels Level] [DecidableEq Key] (dedupCapacityPerStream maxSequenceBuffer : ℕ)
    (inputs : List (Input Level Key)) :
    ∃ p, (FeedProcessor.new dedupCapacityPerStream maxSequenceBuffer).run inputs = some p ∧
      Canonical inputs p := by
  have hstart : Inv [] (FeedProcessor.new dedupCapacityPerStream maxSequenceBuffer :
      FeedProcessor Level Key) := by
    rintro symbol b ⟨⟩
  obtain ⟨p, hrun, hinv⟩ := hstart.run inputs
  exact ⟨p, hrun, hinv.canonical⟩

end Reap.Feed
