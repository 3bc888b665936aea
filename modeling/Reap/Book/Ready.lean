import Reap.Core.Samples
import Reap.Book.History

/-!
# When a book may be used

A quote is priced from the top of a book, so an available book has to be one: sorted, on the
grid, with two sides that do not cross, from a snapshot of the current connection under the
current metadata. And what has made a book unavailable must not be forgotten until a newer
snapshot has been committed.

## What is proved

* `readyTop_eq` — the top of an available book is its greatest bid and its least ask, with their
  quantities.
* `ready_book_of_reach` — in every run, the levels are canonical and an available book is the
  book of the last committed snapshot, in the current epoch.
* `fails_closed_of_reach` — in every run, a call that fails leaves the book unavailable and its
  levels as they were; only a newer snapshot of the current epoch makes it available, and after
  a disconnect only one of a later epoch.
* `disconnect_forgotten` — a disconnect that is reported while another fault is pending is
  refused like every other call, and the book becomes available again in the same epoch.
-/

namespace Reap.Book

open Base Reap.Core PmBookReducer List Samples

/-! ### The top of an available book -/

theorem exists_quantityAt {tick : PmTick} {levels : List PmBookLevel} (hlvl : Canonical tick levels)
    {side : PmBookSide} {price : PmPrice}
    (h : ∃ level ∈ levels, level.side = side ∧ level.price = price) :
    ∃ quantity, quantityAt levels side price = some quantity ∧
      (⟨side, price, .quantity quantity⟩ : PmBookLevel) ∈ levels := by
  obtain ⟨level, hmem, hside, hpri⟩ := h
  have hsome : (levels.find? fun level => level.side == side && level.price == price).isSome := by
    refine find?_isSome.mpr ⟨level, hmem, ?_⟩
    simp [hside, hpri]
  obtain ⟨⟨side', price', quantity⟩, hfind⟩ := Option.isSome_iff_exists.mp hsome
  have hin := mem_of_find?_eq_some hfind
  have hkey := find?_some hfind
  simp only [Bool.and_eq_true, beq_iff_eq] at hkey
  obtain ⟨rfl, rfl⟩ := hkey
  cases quantity with
  | delete => exact absurd rfl (hlvl.positive _ hin)
  | quantity quantity =>
    refine ⟨quantity, ?_, hin⟩
    rw [quantityAt, hfind]

/-- The level is the best of its side: the greatest bid, or the least ask. -/
structure IsBestLevel (side : PmBookSide) (levels : List PmBookLevel) (point : PmBookPoint) :
    Prop where
  mem : (⟨side, point.price, .quantity point.quantity⟩ : PmBookLevel) ∈ levels
  best : IsBest side levels point.price

/-- **The top of an available book.** -/
theorem PmBookReducer.readyTop_eq {s : PmBookReducer} (hs : s.Inv) (hrdy : s.isReady = true) :
    ∃ top bid ask, s.readyTop = some top ∧ top.bid = some bid ∧ top.ask = some ask ∧
      IsBestLevel .bid s.levels bid ∧ IsBestLevel .ask s.levels ask ∧ bid.price < ask.price := by
  obtain ⟨⟨bid, ask⟩, htop⟩ := hs.top (isReady_iff.mp hrdy).2.2.2.1
  obtain ⟨hbid, hask, hlt⟩ := canonicalTop_spec hs.canonical.sorted htop
  obtain ⟨bidQuantity, hbidAt, hbidMem⟩ := exists_quantityAt hs.canonical hbid.mem
  obtain ⟨askQuantity, haskAt, haskMem⟩ := exists_quantityAt hs.canonical hask.mem
  have hunc : ∀ b ∈ some (⟨bid, bidQuantity⟩ : PmBookPoint),
      ∀ a ∈ some (⟨ask, askQuantity⟩ : PmBookPoint), b.price < a.price := by
    rintro _ ⟨⟩ _ ⟨⟩
    exact hlt
  refine ⟨⟨_, _, hunc⟩, _, _, ?_, rfl, rfl, ⟨hbidMem, hbid⟩, ⟨haskMem, hask⟩, hlt⟩
  simp only [readyTop, hrdy, htop, hbidAt, haskAt, Bool.true_eq_false, if_false, PmBookTop.new]
  exact dif_pos hunc

/-! ### A market to run -/

namespace BookSample

def price (units : UInt32) (h : 0 < units.toNat) (h' : units.toNat < pmProtocolScale.toNat) :
    PmPrice :=
  ⟨units, h, h'⟩

def quantity : PmQuantity := share

def exchange : EvmAddress := Samples.address

def token : PmTokenId := Samples.token

/-- The exchange may spend the collateral. -/
def spender : PmSpenderRequirement where
  chain := chain
  spender := exchange
  domain := .standard
  asset := .collateral address

def market : PmMarketMetadata where
  condition := condition
  market := condition
  outcome := ⟨token, ⟨[121], by decide, by decide, by decide +kernel, by decide +kernel⟩⟩
  lifecycle := ⟨true, false, false, true, true⟩
  tick := tick
  minimumOrderSize := quantity
  negativeRisk := false
  chain := chain
  exchange := exchange
  requiredSpenders := [spender]
  on_lot := by decide +kernel
  spenders_ne_nil := by decide
  spenders_length_le := by decide
  spenders_sorted := List.pairwise_singleton _ _
  spenders_match := by
    intro requirement hmem
    cases List.mem_singleton.mp hmem
    exact ⟨rfl, rfl, rfl, nofun⟩

def contract : PmMetadataContract := ⟨market, .clobV2, .goalFClobV2, ⟨1, by decide⟩⟩

def fingerprint : PmMetadataFingerprint := ⟨1, by decide⟩

def instrument : PmInstrumentHandle := ⟨⟨0⟩, ⟨0⟩⟩

def freshness : PmBookFreshness := ⟨1000, 1000, by decide⟩

def metadata : PmMetadataObservation :=
  ⟨instrument, ⟨1⟩, fingerprint, contract, 1, one_ne, one_ne⟩

/-- A bid at 0.49 and an ask at 0.51. -/
def snapshot : PmBookSnapshot where
  levels :=
    [⟨.ask, price 510000 (by decide) (by decide), .quantity quantity⟩,
      ⟨.bid, price 490000 (by decide) (by decide), .quantity quantity⟩]
  length_le := by decide
  no_delete := by decide

/-- The hash of a snapshot. -/
def hash : VenueEventHash :=
  ⟨.sha1, List.replicate 20 1, by decide, ⟨1, by decide, by decide⟩⟩

/-- A snapshot of the epoch, numbered `n` in every respect. -/
def snapshotAt (epoch : ConnectionEpoch) (n : UInt64) (hepoch : epoch.value ≠ 0)
    (hn : n ≠ 0) : Op :=
  .applyUpdate ⟨instrument, epoch, ⟨1⟩, ⟨n⟩, ⟨n⟩, n, some hash, hepoch, one_ne, hn, hn, hn⟩
    (.snapshot snapshot)

/-- The reducer of the market. -/
def fresh : PmBookReducer :=
  match new 7 instrument fingerprint contract freshness with
  | .ok s => s
  | .error _ => ⟨7, instrument, fingerprint, contract, freshness, none, none, false, none, false, none,
      none, none, none, none, none, [], [], [], false, .metadataMissing, none, 0, {}, false⟩

theorem new_fresh : new 7 instrument fingerprint contract freshness = .ok fresh := by
  have hval : validateExpectedContract contract = .ok () := by decide +kernel
  simp [fresh, new, hval]

/-- A snapshot is committed in the first epoch. -/
def opened : List Op :=
  [.applyMetadata metadata, .beginEpoch ⟨1⟩, snapshotAt ⟨1⟩ 2 one_ne two_ne]

/-- A disconnect follows, and the next epoch. -/
def reconnected : List Op :=
  opened ++ [.applyExternalFault ⟨1⟩ .disconnect, .beginEpoch ⟨2⟩]

/-- A disconnect is reported between an overflow and its end. -/
def overlapped : List Op :=
  [.beginPendingExternalFault ⟨1⟩ .overflow, .applyExternalFault ⟨1⟩ .disconnect,
    .finalizePendingExternalFault ⟨7, 1, ⟨1⟩, .overflow⟩ .overflow,
    snapshotAt ⟨1⟩ 3 one_ne three_ne]

end BookSample

/-! ### Every run -/

section

variable {authorityId : UInt64} {instrument : PmInstrumentHandle}
  {fingerprint : PmMetadataFingerprint} {contract : PmMetadataContract}
  {freshness : PmBookFreshness} {s₀ : PmBookReducer} {h : History}

open BookSample

/-- **The available book.** In every run the levels are canonical. When the book is available,
its top is the greatest bid and the least ask, with their quantities, and they do not cross; no
fault is pending; and the last committed snapshot belongs to the current epoch and the current
metadata. -/
theorem ready_book_of_reach
    (hnew : new authorityId instrument fingerprint contract freshness = .ok s₀)
    (hreach : Reach History.step anyCall (History.start s₀) h) :
    Canonical contract.market.tick h.reducer.levels ∧ (h.reducer.isReady = true →
        (∃ top bid ask, h.reducer.readyTop = some top ∧ top.bid = some bid ∧ top.ask = some ask ∧
          IsBestLevel .bid h.reducer.levels bid ∧ IsBestLevel .ask h.reducer.levels ask ∧
          bid.price < ask.price) ∧
        h.reducer.pendingExternalFault = none ∧
        ∃ proof ∈ h.commits.head?, h.reducer.connectionEpoch = some proof.connectionEpoch ∧
          h.reducer.metadataRevision = some proof.metadataRevision) := by
  have hinv := History.historyInv_of_reach hnew hreach
  refine ⟨History.contract_of_reach hnew hreach ▸ hinv.reducer.canonical, fun hrdy => ?_⟩
  have hbook := (isReady_iff.mp hrdy).2.2.2.1
  obtain ⟨proof, hpro, hep, hmet, -⟩ := hinv.current hbook
  exact ⟨readyTop_eq hinv.reducer hrdy, hinv.reducer.settled hbook, proof, hpro, hep, hmet⟩

/-- The book of a run that commits one snapshot. -/
theorem ready_book_of_opened : ∃ h, Reach History.step anyCall (History.start fresh) h ∧
    h.reducer.isReady = true ∧ h.reducer.pendingExternalFault = none ∧
      ∃ proof ∈ h.commits.head?, h.reducer.connectionEpoch = some proof.connectionEpoch := by
  refine exists_reach_and opened (by decide +kernel) fun h hrch hrdy => ?_
  obtain ⟨-, hbook⟩ := ready_book_of_reach new_fresh hrch
  obtain ⟨-, hpend, proof, hpro, hep, -⟩ := hbook hrdy
  exact ⟨hpend, proof, hpro, hep⟩

/-- The call finalizes a fault with an authority that is not for the pending one. -/
def PmBookReducer.Unauthorized (s : PmBookReducer) (op : Op) : Prop :=
  ∃ authority fault, op = .finalizePendingExternalFault authority fault ∧
    s.authorizes authority = false

/-- A committed snapshot is newer than what the history has: its revision than every committed
one, its ingress sequence than every one admitted in the epoch, and its epoch, the current one,
follows the previous epoch and is after every epoch that a fault has ended. -/
structure History.Newer (h : History) (evidence : PmBookBatchEvidence) : Prop where
  revision : ∀ proof ∈ h.commits, proof.snapshotRevision < evidence.snapshotRevision
  ingress : ∀ sequence ∈ h.admitted, sequence < evidence.localIngressSequence
  epoch : h.reducer.connectionEpoch = some evidence.connectionEpoch
  reconnected : ∀ severed ∈ h.severed, ∃ previous earlier,
    h.epochs = evidence.connectionEpoch :: previous :: earlier ∧
      Follows evidence.connectionEpoch previous ∧ severed ≤ previous

theorem History.Inv.newer (hinv : h.Inv) {evidence : PmBookBatchEvidence}
    (hval : h.reducer.EvidenceValid evidence)
    (hrev : ∀ current ∈ h.reducer.lastCommittedSnapshotRevision,
      current < evidence.snapshotRevision) : h.Newer evidence where
  revision := by
    intro proof hmem
    obtain ⟨last, hlast, hle⟩ := hinv.committed proof hmem
    exact lt_of_le_of_lt hle (hrev last hlast)
  ingress := by
    intro sequence hmem
    obtain ⟨last, hlast, hle⟩ := hinv.admitted sequence hmem
    exact lt_of_le_of_lt hle (hval.ingress last hlast)
  epoch := hval.epoch
  reconnected := by
    intro severed hmem
    obtain ⟨hepo, hrec⟩ := hinv.severed severed hmem
    have hne : severed ≠ evidence.connectionEpoch := by
      rintro rfl
      cases hval.connected.symm.trans (hrec hval.epoch)
    obtain ⟨earlier, hear⟩ := head?_eq_some_iff.mp (hinv.epoch.trans hval.epoch)
    rw [hear] at hepo
    have hch := hinv.chain
    rw [hear] at hch
    cases earlier with
    | nil => exact absurd (mem_singleton.mp hepo) hne
    | cons previous earlier =>
      refine ⟨previous, earlier, hear, (isChain_cons_cons.mp hch).1, ?_⟩
      rcases mem_cons.mp ((mem_cons.mp hepo).resolve_left hne) with rfl | hmem
      · exact le_refl _
      · have hpai := pairwise_of_isChain (isChain_cons_cons.mp hch).2
        exact ((pairwise_cons.mp hpai).1 severed hmem).le

/-- **A book fails closed.** In every run: a call that fails leaves the book unavailable and its
levels as they were, unless it was refused for its authority; and a call makes the book available
only by committing a snapshot that is newer than the history. -/
theorem fails_closed_of_reach
    (hnew : new authorityId instrument fingerprint contract freshness = .ok s₀)
    (hreach : Reach History.step anyCall (History.start s₀) h) (op : Op) :
    (∀ reason, (call op h.reducer).1 = .err reason → ¬ h.reducer.Unauthorized op →
      (call op h.reducer).2.isReady = false ∧ (call op h.reducer).2.levels = h.reducer.levels) ∧
    (h.reducer.isReady = false → (call op h.reducer).2.isReady = true →
      ∃ evidence snapshot count proof, op = .applyUpdate evidence (.snapshot snapshot) ∧
        (call op h.reducer).1 =
          .ok (.transition (.snapshotCommitted evidence.snapshotRevision count proof)) ∧
        h.Newer evidence) := by
  have hinv := History.historyInv_of_reach hnew hreach
  have heff := call_effect hinv.reducer op
  generalize call op h.reducer = result at heff
  have hunr {t u : PmBookReducer} (hkept : PmBookReducer.Kept t u)
      (hbook : t.bookReady = false) (hrdy : u.isReady = true) : False := by
    cases hbook.symm.trans (hkept.bookReady (isReady_iff.mp hrdy).2.2.2.1)
  cases heff with
  | failed hclo =>
    refine ⟨fun _ _ _ => ⟨hclo.closed, hclo.kept.levels⟩, fun _ hrdy => ?_⟩
    cases hclo.closed.symm.trans hrdy
  | unauthorized haut =>
    refine ⟨fun _ _ hnot => absurd ⟨_, _, rfl, haut⟩ hnot, fun hbef hrdy => ?_⟩
    cases hbef.symm.trans hrdy
  | finalized hclo =>
    refine ⟨fun _ _ _ => ⟨hclo.closed, hclo.kept.levels⟩, fun _ hrdy => ?_⟩
    cases hclo.closed.symm.trans hrdy
  | confirmed hbef => exact ⟨nofun, fun hnot => nomatch hbef.symm.trans hnot⟩
  | metadata _ hkept => exact ⟨nofun, fun _ hrdy => (hunr hkept rfl hrdy).elim⟩
  | epoch _ _ hkept => exact ⟨nofun, fun _ hrdy => (hunr hkept rfl hrdy).elim⟩
  | pending hkept => exact ⟨nofun, fun _ hrdy => (hunr hkept rfl hrdy).elim⟩
  | snapshot _ hval hrev =>
    exact ⟨nofun, fun _ _ => ⟨_, _, _, _, rfl, rfl, hinv.newer hval hrev⟩⟩
  | delta hbef => exact ⟨nofun, fun hnot => nomatch hbef.symm.trans hnot⟩

/-- After a disconnect the book becomes available in the next epoch. -/
theorem fails_closed_of_reconnected : ∃ h, Reach History.step anyCall (History.start fresh) h ∧
    h.severed = [⟨1⟩] ∧ ∃ evidence, h.Newer evidence ∧ evidence.connectionEpoch = ⟨2⟩ := by
  have hrun : ∃ h, Reach History.step anyCall (History.start fresh) h ∧ h.severed = [⟨1⟩] ∧
      h.reducer.isReady = false ∧
      (call (snapshotAt ⟨2⟩ 3 (by decide) (by decide)) h.reducer).2.isReady = true ∧
      h.reducer.connectionEpoch = some ⟨2⟩ :=
    exists_reach_of_run reconnected (by decide +kernel)
  obtain ⟨h, hrch, hsev, hbef, haft, hep⟩ := hrun
  obtain ⟨-, hrec⟩ := fails_closed_of_reach new_fresh hrch
    (snapshotAt ⟨2⟩ 3 (by decide) (by decide))
  obtain ⟨evidence, -, -, -, -, -, hnew⟩ := hrec hbef haft
  refine ⟨h, hrch, hsev, evidence, hnew, ?_⟩
  exact Option.some.inj (hnew.epoch.symm.trans hep)

/-- **A forgotten disconnect.** While an overflow is pending, a disconnect of the current epoch is
refused; once the overflow is finalized, a snapshot of the same epoch makes the book available. -/
theorem disconnect_forgotten : ∃ s, Reach step anyCall fresh s ∧
    s.isReady = true ∧ s.connectionEpoch = some ⟨1⟩ ∧
    .applyExternalFault ⟨1⟩ .disconnect ∈ overlapped ∧
    ∃ t, run step anyCall overlapped s = some t ∧ t.isReady = true ∧ t.connectionEpoch = some ⟨1⟩ :=
  exists_reach_imp (P := fun s => s.isReady = true ∧ s.connectionEpoch = some ⟨1⟩ ∧
      ∃ t ∈ run step anyCall overlapped s, t.isReady = true ∧ t.connectionEpoch = some ⟨1⟩)
    opened (by decide +kernel) fun _ _ ⟨hrdy, hep, hrest⟩ =>
      ⟨hrdy, hep, by simp [overlapped], hrest⟩

end

end Reap.Book
