import Reap.Storage.Recovery

/-!
# Appending to a recovered journal

The writer opens the journal for appending and writes each record as a line with a newline. It does
not look at the end of the file. A crash may have left an unterminated last line there, which
recovery ignores if it cannot be decoded. The first appended record then continues that line.

    recovered:   … record ⏎ rec            read as: …, record
    appended:    … record ⏎ recrecord ⏎    read as: …, record, a line that is not a record

## What is proved

* `linesFrom_append` — the lines of a text that was appended to.
* `reappended_iff` — when the journal stays readable and keeps its records.
* `torn_tail_corrupts` — a torn tail makes the journal unreadable after one more record.
-/

namespace Reap.Storage

open Base List Schema

variable {ρ : Type} [Schema ρ]

/-- `write_pending`: what the writer appends for a list of records. -/
def written (records : List ρ) : List Char :=
  records.flatMap fun record => Schema.encode record ++ ['\n']

/-- The file after records were appended to it. -/
def appended (bytes : ByteArray) (records : List ρ) : ByteArray :=
  bytes ++ (String.ofList (written records)).toUTF8

/-! ### Lines -/

/-- The lines that end in a newline. -/
def completeFrom : List Char → List Char → List (List Char)
  | _, [] => []
  | current, c :: rest =>
    if c = '\n' then stripReturn current :: completeFrom [] rest
    else completeFrom (current ++ [c]) rest

/-- What follows the last newline. -/
def unterminatedFrom : List Char → List Char → List Char
  | current, [] => current
  | current, c :: rest =>
    if c = '\n' then unterminatedFrom [] rest else unterminatedFrom (current ++ [c]) rest

/-- The unterminated last line of a file. -/
def unterminated (bytes : ByteArray) : List Char :=
  match String.fromUTF8? bytes with
  | none => []
  | some text => unterminatedFrom [] text.toList

/-- Text that is appended continues the unterminated line. -/
theorem linesFrom_append (current text more : List Char) : linesFrom current (text ++ more) =
    completeFrom current text ++ linesFrom (unterminatedFrom current text) more := by
  induction text generalizing current with
  | nil => rfl
  | cons _ _ ih =>
    simp only [cons_append, linesFrom, completeFrom, unterminatedFrom]
    split_ifs
    · rw [ih, cons_append]
    · exact ih _

theorem linesFrom_line {line : List Char} (h : '\n' ∉ line) (current more : List Char) :
    linesFrom current (line ++ '\n' :: more) =
      stripReturn (current ++ line) :: linesFrom [] more := by
  induction line generalizing current with
  | nil => simp [linesFrom]
  | cons _ _ ih =>
    obtain ⟨hc, hrest⟩ := not_or.mp (mt mem_cons.mpr h)
    rw [cons_append, linesFrom, if_neg (Ne.symm hc), ih hrest, append_assoc]
    rfl

theorem stripReturn_encode (current : List Char) (record : ρ) :
    stripReturn (current ++ encode record) = current ++ encode record := by
  have hne : encode record ≠ [] := fun hnil => by
    have hbla := not_blank record
    rw [hnil] at hbla
    cases hbla
  unfold stripReturn
  rw [getLast?_append_of_ne_nil _ hne, if_neg (no_return record)]

theorem linesFrom_written (current : List Char) (record : ρ) (records : List ρ) :
    linesFrom current (written (record :: records)) =
      (current ++ encode record) :: records.map encode := by
  induction records generalizing current record with
  | nil =>
    have h := linesFrom_line (no_newline record) current []
    simpa [written, stripReturn_encode, linesFrom] using h
  | cons next rest ih =>
    have h := linesFrom_line (no_newline record) current (written (next :: rest))
    rw [stripReturn_encode, ih] at h
    simpa [written] using h

theorem getLast?_written (text : List Char) (record : ρ) (records : List ρ) :
    (text ++ written (record :: records)).getLast? = some '\n' := by
  rcases eq_nil_or_concat records with rfl | ⟨init, last, rfl⟩ <;> simp [written, ← append_assoc]

variable {text : List Char}

/-- A text ends in a newline, or it is empty, exactly if its last line is terminated. -/
theorem unterminatedFrom_eq_nil {current : List Char} : unterminatedFrom current text = [] ↔
      (text = [] ∧ current = []) ∨ text.getLast? = some '\n' := by
  induction text generalizing current with
  | nil => simp [unterminatedFrom]
  | cons _ rest ih =>
    rw [unterminatedFrom]
    split_ifs with hc
    all_goals
      cases rest with
      | nil => simp [unterminatedFrom, hc]
      | cons => simp [ih, getLast?_cons_cons]

/-! ### Reading -/

section

variable {s s' : RecoveredStorage ρ} {line : ℕ}

/-- Lines followed by others, or by a newline, are all read strictly. -/
theorem readLines_append {trailingNewline : Bool} (first : List (List Char))
    {others : List (List Char)} (h : trailingNewline = true ∨ others ≠ []) :
    readLines trailingNewline line (first ++ others) s =
      readLines true line first s >>= readLines trailingNewline (line + first.length) others := by
  induction first generalizing line s with
  | nil => rfl
  | cons text rest ih =>
    have hstr : ((rest ++ others).isEmpty && !trailingNewline) = (rest.isEmpty && !true) := by
      rcases h with rfl | h
      · simp
      · simp [h]
    have hlen : line + (text :: rest).length = line + 1 + rest.length := by
      simp only [length_cons]
      omega
    rw [cons_append, readLines, readLines, hstr, hlen]
    cases readLine (rest.isEmpty && !true) line text s with
    | error => rfl
    | ok => exact ih

theorem readLine_record {torn : Bool} {version : ℕ} {record : ρ} (hbla : blank text = false)
    (hdec : decode text = .ok (version, record)) (hver : 2 ≤ version ∧ version ≤ 7) :
    readLine torn line text s = .ok s' ↔ ∃ o, s.ownership.apply (kind record) = .ok o ∧
      s' = { s with visited := s.visited ++ [record], ownership := o } := by
  have hsup : ¬ (version < 2 ∨ 7 < version) := by omega
  simp only [readLine, hbla, hdec, if_neg hsup, Bool.false_eq_true, if_false]
  cases s.ownership.apply (kind record) with
  | error => simp
  | ok => simp [eq_comm]

/-- What the records do to the ownership, one after another. -/
def applyAll (o : Ownership) (records : List ρ) : Except String Ownership :=
  records.foldlM (fun o record => o.apply (Schema.kind record)) o

/-- Encoded records are read back, if they fit what was read before. -/
theorem readLines_encode (records : List ρ) : readLines true line (records.map encode) s = .ok s' ↔
      ∃ o, applyAll s.ownership records = .ok o ∧
        s' = { s with visited := s.visited ++ records, ownership := o } := by
  induction records generalizing line s with
  | nil => simp [readLines, applyAll, pure, Except.pure, eq_comm]
  | cons record _ ih =>
    have hrec {torn : Bool} {t : RecoveredStorage ρ} :
        readLine torn line (encode record) s = .ok t ↔ _ :=
      readLine_record (not_blank record) (decode_encode record) (by omega)
    simp only [map_cons, readLines, bind_eq_ok, hrec, ih, applyAll, foldlM_cons]
    constructor
    · rintro ⟨t, ⟨o, ho, rfl⟩, o', ho', rfl⟩
      exact ⟨o', ⟨o, ho, ho'⟩, by simp⟩
    · rintro ⟨o', ⟨o, ho, ho'⟩, rfl⟩
      exact ⟨_, ⟨o, ho, rfl⟩, o', ho', by simp⟩

end

/-! ### Appending -/

/-- The first appended record continues nothing; or it continues a line that gave no record, and it
is read from that line. -/
def Rejoins (tail : List Char) : List ρ → Prop
  | [] => True
  | record :: _ => tail = [] ∨
    (Silent ρ tail ∧ ∃ version, Schema.decode (tail ++ Schema.encode record) =
      .ok (version, record) ∧ 2 ≤ version ∧ version ≤ 7)

section

variable {text : String} {retain : Bool} {s : RecoveredStorage ρ}

theorem fromUTF8?_toUTF8 : String.fromUTF8? text.toUTF8 = some text := dif_pos text.isValidUTF8

theorem eq_toUTF8_of_fromUTF8? {bytes : ByteArray} (h : String.fromUTF8? bytes = some text) :
    bytes = text.toUTF8 := by
  obtain ⟨hval, hbyt⟩ := Option.dite_none_right_eq_some.mp h
  rw [← Option.some.inj hbyt]
  rfl

theorem recover_of_readLines (retain : Bool)
    (h : readLines (text.toList.getLast? = some '\n') 1 (linesFrom [] text.toList) {} = .ok s) :
    ∃ s', recover text.toUTF8 retain = .ok s' ∧ s'.visited = s.visited ∧
      s'.ignoredTruncatedTail = s.ignoredTruncatedTail := by
  simp only [recover, fromUTF8?_toUTF8, bind_eq_ok]
  cases retain with
  | true => exact ⟨s, ⟨s, h, rfl⟩, rfl, rfl⟩
  | false => exact ⟨_, ⟨s, h, rfl⟩, rfl, rfl⟩

theorem recover_visited {visited : List ρ} :
    (∃ s, recover text.toUTF8 retain = .ok s ∧ s.visited = visited) ↔
      ∃ s, readLines (text.toList.getLast? = some '\n') 1 (linesFrom [] text.toList) {} = .ok s ∧
        s.visited = visited := by
  constructor
  · rintro ⟨s, h, hvis⟩
    simp only [recover, fromUTF8?_toUTF8, bind_eq_ok] at h
    obtain ⟨t, hread, ht⟩ := h
    refine ⟨t, hread, ?_⟩
    cases retain <;> cases ht <;> exact hvis
  · rintro ⟨s, hread, hvis⟩
    obtain ⟨s', h, hsame, -⟩ := recover_of_readLines retain hread
    exact ⟨s', h, hsame.trans hvis⟩

end

/-- An unterminated line that a record continues. -/
theorem readLines_continued {tail : List Char} {record : ρ} {records : List ρ}
    {before s : RecoveredStorage ρ} {line : ℕ} (h : readLine true line tail before = .ok s) :
    (∃ s', readLines true line ((tail ++ encode record) :: records.map encode)
        before = .ok s' ∧ s'.visited = s.visited ++ record :: records) ↔
      (Silent ρ tail ∧ ∃ version, decode (tail ++ encode record) =
        .ok (version, record) ∧ 2 ≤ version ∧ version ≤ 7) ∧
      ∃ o, applyAll s.ownership (record :: records) = .ok o := by
  have hbla : blank (tail ++ encode record) = false := by
    have hrec := not_blank record
    unfold blank at hrec ⊢
    rw [all_append, hrec, Bool.and_false]
  constructor
  · rintro ⟨s', hread, hvis⟩
    obtain ⟨next, hline, hread⟩ := bind_eq_ok.mp hread
    obtain ⟨o', ho', rfl⟩ := (readLines_encode records).mp hread
    -- the joined line gives one record at most, so the unterminated line gave none
    have hcnt := congrArg length hvis
    rcases readLine_cases h with ⟨hsil, hsame, hown⟩ | ⟨-, found, -, -, -, -, hsame, -⟩ <;>
      rcases readLine_cases hline with ⟨-, hnext, -⟩ |
        ⟨version, joined, -, hdec, hlow, hhigh, hnext, happ⟩ <;>
      simp only [hsame, hnext, length_append, length_cons, length_nil] at hcnt <;>
      try omega
    rw [hnext, hsame, append_assoc] at hvis
    obtain rfl : joined = record := (cons.inj (append_cancel_left hvis)).1
    refine ⟨⟨hsil, version, hdec, hlow, hhigh⟩, o', ?_⟩
    exact bind_eq_ok.mpr ⟨next.ownership, hown ▸ happ, ho'⟩
  · rintro ⟨⟨hsil, version, hdec, hver⟩, o, ho⟩
    obtain ⟨o', ho', hrest⟩ := bind_eq_ok.mp ho
    rcases readLine_cases h with ⟨-, hvis, hown⟩ | ⟨-, -, hloud, -⟩
    swap
    · exact absurd hsil hloud
    rw [hown] at ho'
    refine ⟨_, bind_eq_ok.mpr ⟨_, (readLine_record hbla hdec hver).mpr ⟨o', ho', rfl⟩,
      (readLines_encode records).mpr ⟨o, hrest, rfl⟩⟩, ?_⟩
    simp [hvis]

/-- A text and what is appended to it, in the terms of their lines. -/
theorem readLines_reappended {s : RecoveredStorage ρ} (record : ρ) (records : List ρ)
    (h : readLines (text.getLast? = some '\n') 1 (linesFrom [] text) {} = .ok s) :
    (∃ s', readLines true 1 (linesFrom [] (text ++ written (record :: records))) {} = .ok s' ∧
        s'.visited = s.visited ++ record :: records) ↔
      Rejoins (unterminatedFrom [] text) (record :: records) ∧
        ∃ o, applyAll s.ownership (record :: records) = .ok o := by
  have hlin := linesFrom_append [] text []
  rw [append_nil] at hlin
  rw [hlin] at h
  rw [linesFrom_append, linesFrom_written, readLines_append _ (.inl rfl)]
  unfold Rejoins
  by_cases htail : unterminatedFrom [] text = []
  · have hcom : readLines true 1 (completeFrom [] text) {} = .ok s := by
      rcases unterminatedFrom_eq_nil.mp htail with ⟨rfl, -⟩ | hlast
      · exact h
      · simpa [htail, linesFrom, hlast] using h
    simp only [hcom, htail, nil_append, ← map_cons, true_or, true_and]
    constructor
    · rintro ⟨s', hread, -⟩
      exact ((readLines_encode _).mp hread).imp fun o ho => ho.1
    · rintro ⟨o, ho⟩
      exact ⟨_, (readLines_encode _).mpr ⟨o, ho, rfl⟩, rfl⟩
  · have hlast : decide (text.getLast? = some '\n') = false :=
      decide_eq_false fun hlast => htail (unterminatedFrom_eq_nil.mpr (.inr hlast))
    rw [hlast, readLines_append _ (.inr (by simp [linesFrom, htail]))] at h
    obtain ⟨before, hbef, h⟩ := bind_eq_ok.mp h
    obtain ⟨t, hline, ht⟩ : ∃ t, readLine true _ (unterminatedFrom [] text) before = .ok t ∧
        t = s := by
      simpa [linesFrom, htail, readLines, bind_eq_ok] using h
    subst ht
    simp only [hbef, htail, false_or]
    exact readLines_continued hline

/-- **When a reopened journal stays readable.** The records appended to an accepted journal are read
after its own exactly if they rejoin its end and contradict nothing. -/
theorem reappended_iff {bytes : ByteArray} {s : RecoveredStorage ρ} (records : List ρ)
    (retain : Bool) (h : recover bytes true = .ok s) :
    (∃ s', recover (appended bytes records) retain = .ok s' ∧ s'.visited = s.visited ++ records) ↔
      Rejoins (unterminated bytes) records ∧ ∃ o, applyAll s.ownership records = .ok o := by
  unfold recover at h
  cases htext : String.fromUTF8? bytes with
  | none => simp [htext] at h
  | some text =>
    obtain rfl := eq_toUTF8_of_fromUTF8? htext
    have happ : appended text.toUTF8 records = (text ++ String.ofList (written records)).toUTF8 :=
      String.toByteArray_append.symm
    simp only [htext, bind_eq_ok] at h
    obtain ⟨t, hread, ht⟩ := h
    cases ht
    simp only [happ, recover_visited, unterminated, htext, String.toList_append,
      String.toList_ofList]
    cases records with
    | nil =>
      simp only [written, flatMap_nil, append_nil]
      exact ⟨fun _ => ⟨trivial, s.ownership, rfl⟩, fun _ => ⟨s, hread, rfl⟩⟩
    | cons record records =>
      simp only [getLast?_written, decide_true]
      exact readLines_reappended record records hread

namespace Sample

def noted : RecoveredStorage Entry := { visited := [.note] }

end Sample

open Sample

theorem reappended_terminated : recover "n;\n".toUTF8 true = .ok noted ∧
    ∃ s, recover (appended "n;\n".toUTF8 [Entry.request]) false = .ok s ∧
      s.visited = noted.visited ++ [.request] := by
  have h : recover "n;\n".toUTF8 true = .ok noted := rfl
  have hrej : Rejoins (unterminated "n;\n".toUTF8) [Entry.request] := .inl rfl
  have happ : ∃ o, applyAll noted.ownership [Entry.request] = .ok o := ⟨_, rfl⟩
  exact ⟨h, (reappended_iff [Entry.request] false h).mpr ⟨hrej, happ⟩⟩

theorem torn_tail_corrupts :
    recover "n;\nq".toUTF8 true = .ok { noted with ignoredTruncatedTail := true } ∧
      (recover (appended "n;\nq".toUTF8 [Entry.note]) true : Except _ (RecoveredStorage Entry)) =
        .error (.corrupt 2 "not a record") :=
  ⟨rfl, rfl⟩

end Reap.Storage
