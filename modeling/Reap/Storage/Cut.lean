import Reap.Storage.Tail
import Mathlib.Data.String.Basic

/-!
# Crash cuts of the journal

A crash can leave any prefix of the bytes that were written. Recovery reads the lines that lie
completely in the prefix, and ignores what is left of a line that was cut.

It decodes the whole file as text before it looks at a line, so that a cut inside a character makes
the file unreadable. And it skips a blank line before it tries to decode it, so that a cut in the
blanks at the start of a record is not reported.

    written:  r e c o r d ⏎ r é c o r d ⏎
    cut:      r e c o r d ⏎ r ½                 invalid text: nothing is recovered

## What is proved

* `readLines_cut` — what is read of a text that was cut.
* `cut_recovers_iff` — which cuts recover exactly the complete records.
* `recover_inside_character` — a cut inside a character leaves nothing to recover.
-/

namespace Reap.Storage

open Base List String Schema
open String (utf8Len)

/-- The text of a journal with these lines. -/
def journal (lines : List (List Char)) : List Char := lines.flatMap (· ++ ['\n'])

/-- The file. -/
def journalBytes (lines : List (List Char)) : ByteArray := (ofList (journal lines)).toUTF8

/-- How many lines lie completely in the first bytes of their journal. -/
def linesWithin : ℕ → List (List Char) → ℕ
  | _, [] => 0
  | n, line :: rest => if utf8Len line ≤ n then linesWithin (n - utf8Len line - 1) rest + 1 else 0

/-- The first bytes of a journal end inside one of its lines. -/
def EndsInside : ℕ → List (List Char) → Prop
  | _, [] => False
  | n, line :: rest => if utf8Len line ≤ n then EndsInside (n - utf8Len line - 1) rest else 0 < n

variable {ρ : Type} [Schema ρ]

/-- The line of a record, no proper part of which is the text of a record. -/
structure RecordLine (ρ : Type) [Schema ρ] (line : List Char) : Prop where
  no_newline : '\n' ∉ line
  not_blank : blank line = false
  parts : ∀ part more, line = part ++ more → part ≠ [] → more ≠ [] →
    ∃ message, (decode part : Except String (ℕ × ρ)) = .error message

section

variable {s t : RecoveredStorage ρ} {number : ℕ} {line text more : List Char}
  {lines : List (List Char)}

theorem RecordLine.utf8Len_pos (h : RecordLine ρ line) : 0 < utf8Len line := by
  refine Nat.pos_of_ne_zero fun hzero => ?_
  obtain rfl := utf8Len_eq_zero.mp hzero
  cases h.not_blank

theorem within_zero (h : ∀ l ∈ lines, RecordLine ρ l) :
    linesWithin 0 lines = 0 ∧ ¬ EndsInside 0 lines := by
  cases lines with
  | nil => exact ⟨rfl, id⟩
  | cons line =>
    have := (h line (.head _)).utf8Len_pos
    simp only [linesWithin, EndsInside]
    split_ifs <;> omega

theorem unterminatedFrom_append (current text more : List Char) :
    unterminatedFrom current (text ++ more) =
      unterminatedFrom (unterminatedFrom current text) more := by
  induction text generalizing current with
  | nil => rfl
  | cons _ _ ih =>
    simp only [cons_append, unterminatedFrom]
    split_ifs <;> exact ih _

theorem unterminatedFrom_of_no_newline (h : '\n' ∉ text) (current : List Char) :
    completeFrom current text = [] ∧ unterminatedFrom current text = current ++ text := by
  induction text generalizing current with
  | nil => simp [completeFrom, unterminatedFrom]
  | cons c _ ih =>
    obtain ⟨hc, hrest⟩ := not_or.mp (mt mem_cons.mpr h)
    simpa [completeFrom, unterminatedFrom, Ne.symm hc] using ih hrest (current ++ [c])

/-- A text of one unterminated line. -/
theorem readLines_unterminated (h : '\n' ∉ text) (hne : text ≠ []) :
    readLines (text.getLast? = some '\n') number (linesFrom [] text) s =
      readLine true number text s := by
  obtain ⟨hcom, htail⟩ := unterminatedFrom_of_no_newline h []
  have hlin := linesFrom_append [] text []
  have hlast : ¬ text.getLast? = some '\n' := fun hlast => h (mem_of_getLast? hlast)
  rw [append_nil, hcom, htail, nil_append, nil_append, linesFrom, if_neg hne] at hlin
  rw [hlin, decide_eq_false hlast, readLines]
  exact bind_pure _

/-- The line of a record that was read strictly is read as the same record in any case. -/
theorem RecordLine.read (h : RecordLine ρ line)
    (hread : readLine false number (stripReturn line) s = .ok t) :
    stripReturn line = line ∧ (∀ torn, readLine torn number line s = .ok t) ∧
      (∃ record, t.visited = s.visited ++ [record]) ∧
      t.ignoredTruncatedTail = s.ignoredTruncatedTail := by
  have hdeco {text : List Char} (hbla : blank text = false)
      (hread : readLine false number text s = .ok t) :
      ¬ ∃ message, (decode text : Except String (ℕ × ρ)) = .error message := by
    rintro ⟨message, hdec⟩
    simp [readLine, hbla, hdec] at hread
  have hstr : stripReturn line = line := by
    by_contra hne
    obtain ⟨init, rfl⟩ := getLast?_eq_some_iff.mp (not_not.mp fun hret => hne (if_neg hret))
    have hinit : stripReturn (init ++ ['\r']) = init := by simp [stripReturn]
    have hbla : blank init = false := by
      have := h.not_blank
      simpa [blank, show isWhitespace '\r' = true from rfl] using this
    refine hdeco hbla (hinit ▸ hread) (h.parts init _ rfl ?_ (by simp))
    rintro rfl
    cases hbla
  rw [hstr] at hread
  rcases readLine_cases hread with ⟨hsil, -⟩ | ⟨version, record, -, hdec, hlow, hhigh, -⟩
  · rcases hsil with hbla | herr
    · simp [h.not_blank] at hbla
    · exact absurd herr (hdeco h.not_blank hread)
  · obtain ⟨o, ho, rfl⟩ := (readLine_record h.not_blank hdec ⟨hlow, hhigh⟩).mp hread
    exact ⟨hstr, fun torn => (readLine_record h.not_blank hdec ⟨hlow, hhigh⟩).mpr ⟨o, ho, rfl⟩,
      ⟨record, rfl⟩, rfl⟩

/-- What is read of a text that was cut. -/
theorem readLines_cut (hlin : ∀ l ∈ lines, RecordLine ρ l) (htext : text ++ more = journal lines)
    (hread : readLines true number (linesFrom [] (journal lines)) s = .ok t) :
    ∃ s' records, readLines (text.getLast? = some '\n') number (linesFrom [] text) s = .ok s' ∧
      t.visited = s.visited ++ records ∧
      s'.visited = s.visited ++ records.take (linesWithin (utf8Len text) lines) ∧
      (s'.ignoredTruncatedTail = true ↔ s.ignoredTruncatedTail = true ∨
        (EndsInside (utf8Len text) lines ∧ blank (unterminatedFrom [] text) = false)) := by
  induction lines generalizing text more number s with
  | nil =>
    obtain ⟨rfl, rfl⟩ := append_eq_nil_iff.mp htext
    obtain rfl : s = t := Except.ok.inj hread
    exact ⟨s, [], rfl, by simp, by simp, by simp [EndsInside]⟩
  | cons line rest ih =>
    obtain ⟨hline, hrest⟩ := forall_mem_cons.mp hlin
    have hjou : journal (line :: rest) = line ++ '\n' :: journal rest := by simp [journal]
    have hsize (text : List Char) :
        utf8Len (line ++ '\n' :: text) = utf8Len line + 1 + utf8Len text := by
      rw [utf8Len_append, utf8Len_cons, show '\n'.utf8Size = 1 from rfl]
      omega
    rw [hjou, linesFrom_line hline.no_newline] at hread
    obtain ⟨next, hnext, hread⟩ := bind_eq_ok.mp hread
    rw [Bool.not_true, Bool.and_false] at hnext
    obtain ⟨hstr, hsame, ⟨record, hrec⟩, hflag⟩ := hline.read hnext
    -- the cut is in the first line or after it
    have hcut : (∃ left, line = text ++ left) ∨
        ∃ after, text = line ++ '\n' :: after ∧ after ++ more = journal rest := by
      rw [hjou, append_eq_append_iff] at htext
      obtain ⟨left, hleft, -⟩ | ⟨_ | ⟨c, after⟩, hleft, hmore⟩ := htext
      · exact .inl ⟨left, hleft⟩
      · exact .inl ⟨[], by simp [hleft]⟩
      · obtain ⟨rfl, haft⟩ := cons.inj hmore
        exact .inr ⟨after, hleft, haft.symm⟩
    rcases hcut with ⟨left, hleft⟩ | ⟨after, rfl, haft⟩
    · obtain ⟨-, later, -, hlat, -⟩ := ih hrest (nil_append _) hread
      have hall : t.visited = s.visited ++ record :: later := by simp [hlat, hrec]
      have hno : '\n' ∉ text := fun hmem => hline.no_newline (hleft ▸ mem_append_left _ hmem)
      have hlen : utf8Len line = utf8Len text + utf8Len left := by rw [hleft, utf8Len_append]
      by_cases hemp : text = []
      · subst hemp
        have hzero := within_zero hlin
        exact ⟨s, _, rfl, hall, by simp [hzero.1], by simp [hzero.2]⟩
      · rw [readLines_unterminated hno hemp, (unterminatedFrom_of_no_newline hno []).2, nil_append]
        by_cases hwh : left = []
        · rw [hwh, append_nil] at hleft
          subst hleft
          have hzero := within_zero hrest
          exact ⟨next, _, hsame true, hall, by simp [linesWithin, hzero.1, hrec],
            by simp [EndsInside, hzero.2, hflag]⟩
        · obtain ⟨message, hdec⟩ := hline.parts text left hleft hemp hwh
          have hsho : ¬ utf8Len line ≤ utf8Len text := by
            have := mt utf8Len_eq_zero.mp hwh
            omega
          have hpos := Nat.pos_of_ne_zero (mt utf8Len_eq_zero.mp hemp)
          simp only [readLine, hdec, if_true, linesWithin, EndsInside, if_neg hsho, hpos]
          cases hbla : blank text with
          | true => exact ⟨s, _, rfl, hall, by simp, by simp⟩
          | false => exact ⟨_, _, rfl, hall, by simp, by simp⟩
    · obtain ⟨s', records, hrun, hvis, hins, htorn⟩ := ih hrest haft hread
      have htail : unterminatedFrom [] (line ++ '\n' :: after) = unterminatedFrom [] after := by
        simp [unterminatedFrom_append, unterminatedFrom]
      have hskip : utf8Len line + 1 + utf8Len after - utf8Len line - 1 = utf8Len after := by omega
      have hfst : utf8Len line ≤ utf8Len line + 1 + utf8Len after := by omega
      refine ⟨s', record :: records, ?_, by simp [hvis, hrec], ?_, ?_⟩
      · rw [linesFrom_line hline.no_newline, nil_append, hstr]
        refine bind_eq_ok.mpr ⟨next, hsame _, ?_⟩
        cases after with
        | nil => exact hrun
        | cons => simpa [getLast?_append, getLast?_cons_cons] using hrun
      · simp [hsize, linesWithin, hfst, hskip, hins, hrec]
      · simp [hsize, EndsInside, hfst, hskip, htail, htorn, hflag]

end

theorem size_toUTF8 (text : List Char) : (ofList text).toUTF8.size = utf8Len text :=
  String.utf8ByteSize_ofList text

/-- A cut between two characters leaves the first ones. -/
theorem extract_append (first more : String) :
    (first ++ more).toUTF8.extract 0 first.toUTF8.size = first.toUTF8 :=
  (congrArg (ByteArray.extract · 0 _) String.toByteArray_append).trans
    (ByteArray.extract_append_eq_left rfl)

/-- **Which cuts recover exactly the complete records.** -/
theorem cut_recovers_iff {lines : List (List Char)} {s : RecoveredStorage ρ} {retain : Bool}
    (hlines : ∀ l ∈ lines, RecordLine ρ l)
    (hjournal : recover (journalBytes lines) retain = .ok s) (n : ℕ)
    (hn : n ≤ (journalBytes lines).size) :
    (∃ s', recover ((journalBytes lines).extract 0 n) retain = .ok s' ∧
        s'.visited = s.visited.take (linesWithin n lines) ∧
        (s'.ignoredTruncatedTail = true ↔ EndsInside n lines)) ↔
      ∃ text : String, text.toUTF8 = (journalBytes lines).extract 0 n ∧
        ¬ (EndsInside n lines ∧ blank (unterminatedFrom [] text.toList)) := by
  have hread : ∃ t, readLines true 1 (linesFrom [] (journal lines)) {} = .ok t ∧
      t.visited = s.visited := by
    have hlast : journal lines = [] ∨ (journal lines).getLast? = some '\n' := by
      rcases eq_nil_or_concat lines with rfl | ⟨init, last, rfl⟩ <;> simp [journal]
    have h := recover_visited.mp ⟨s, hjournal, rfl⟩
    rcases hlast with hemp | hlast
    · simpa [hemp, linesFrom, readLines] using h
    · simpa [hlast] using h
  obtain ⟨t, hread, ht⟩ := hread
  -- what is read where the cut is not inside a character
  have hcut {text : String} (htext : text.toUTF8 = (journalBytes lines).extract 0 n) :
      ∃ s', recover text.toUTF8 retain = .ok s' ∧
        s'.visited = s.visited.take (linesWithin n lines) ∧ (s'.ignoredTruncatedTail = true ↔
          EndsInside n lines ∧ blank (unterminatedFrom [] text.toList) = false) := by
    obtain ⟨first, more, happ, hfst⟩ := String.Pos.Raw.isValid_iff_exists_append.mp
      (String.Pos.Raw.isValid_iff_isValidUTF8_extract_zero.mpr ⟨hn, htext ▸ text.isValidUTF8⟩)
    have hsize : n = first.toUTF8.size := congrArg String.Pos.Raw.byteIdx hfst
    obtain rfl : text = first := by
      rw [journalBytes, happ, hsize, extract_append] at htext
      exact toByteArray_inj.mp htext
    have htoLis : text.toList ++ more.toList = journal lines := by
      rw [← toList_append, ← happ, toList_ofList]
    obtain ⟨s', records, hrun, hreco, hins, htorn⟩ := readLines_cut hlines htoLis hread
    obtain ⟨s'', hrec, hvis, hflag⟩ := recover_of_readLines retain hrun
    rw [utf8Len_toList, show text.utf8ByteSize = n from hsize.symm] at hins htorn
    refine ⟨s'', hrec, ?_, ?_⟩
    · rw [hvis, hins, ← ht, hreco]
      rfl
    · simpa [hflag] using htorn
  constructor
  · rintro ⟨s', hrec, -, hflag⟩
    cases htext : fromUTF8? ((journalBytes lines).extract 0 n) with
    | none =>
      rw [recover, htext] at hrec
      cases hrec
    | some text =>
      have htext := eq_toUTF8_of_fromUTF8? htext
      obtain ⟨s'', hrec', -, htorn⟩ := hcut htext.symm
      obtain rfl : s' = s'' := Except.ok.inj ((htext ▸ hrec).symm.trans hrec')
      refine ⟨text, htext.symm, ?_⟩
      rintro ⟨hins, hbla⟩
      simp [htorn, hins, hbla] at hflag
  · rintro ⟨text, htext, hnot⟩
    obtain ⟨s', hrec, hvis, htorn⟩ := hcut htext
    refine ⟨s', htext ▸ hrec, hvis, htorn.trans (and_iff_left_of_imp fun hins => ?_)⟩
    simpa [hins] using hnot

/-- A cut inside a character leaves no text. -/
theorem recover_inside_character (first more : List Char) {c : Char} {k : ℕ} (hpos : 0 < k)
    (hlt : k < c.utf8Size) (retain : Bool) :
    (recover ((ofList (first ++ c :: more)).toUTF8.extract 0 (utf8Len first + k)) retain :
      Except _ (RecoveredStorage ρ)) = .error .io := by
  have hinvalid : ¬ ((ofList (first ++ c :: more)).toUTF8.extract 0
      (utf8Len first + k)).IsValidUTF8 := by
    intro hvalid
    have hsize : utf8Len first + k ≤ (ofList (first ++ c :: more)).toUTF8.size := by
      rw [size_toUTF8, utf8Len_append, utf8Len_cons]
      omega
    obtain ⟨start, rest, happ, hstart⟩ := String.Pos.Raw.isValid_iff_exists_append.mp
      (String.Pos.Raw.isValid_iff_isValidUTF8_extract_zero.mpr ⟨hsize, hvalid⟩)
    have hlen : utf8Len first + k = utf8Len start.toList :=
      (congrArg String.Pos.Raw.byteIdx hstart).trans (utf8Len_toList start).symm
    have hlist := congrArg toList happ
    rw [toList_ofList, toList_append, append_eq_append_iff] at hlist
    obtain ⟨left, hleft, hright⟩ | ⟨left, hleft, -⟩ := hlist
    · rw [hleft, utf8Len_append] at hlen
      cases left with
      | nil =>
        rw [utf8Len_nil] at hlen
        omega
      | cons d left =>
        obtain ⟨rfl, -⟩ := cons.inj hright
        rw [utf8Len_cons] at hlen
        omega
    · rw [hleft, utf8Len_append] at hlen
      omega
  rw [recover, fromUTF8?, dif_neg hinvalid]

namespace Sample

/-- The text of a `System` record, up to a letter of two bytes in its reason. -/
def noteStart : List Char :=
  '\x7b' :: ("\"schema_version\":7,\"record\":\x7b\"kind\":\"system\",\"data\":\x7b\"ts_ms\":1," ++
    "\"kind\":\"feed_gap\",\"venue\":null,\"account_id\":null,\"symbol\":null," ++
    "\"reason\":\"").toList

def noteText : List Char := noteStart ++ ['é', '"', '\x7d', '\x7d', '\x7d']

/-- A journal of such records. -/
instance : Schema Unit where
  kind _ := .other
  encode _ := noteText
  decode text := if text = noteText then .ok (7, ()) else .error "not a record"
  decode_encode _ := if_pos rfl
  no_newline _ := by decide +kernel
  no_return _ := by simp [noteText, getLast?_append]
  not_blank _ := rfl

def twoNotes : List (List Char) := [noteText, noteText]

/-- The text up to the letter of the second record. -/
def beforeLetter : List Char := noteText ++ '\n' :: noteStart

theorem journal_twoNotes :
    journal twoNotes = beforeLetter ++ 'é' :: ['"', '\x7d', '\x7d', '\x7d', '\n'] := by
  simp [journal, twoNotes, beforeLetter, noteText]

theorem recordLine_note : ∀ l ∈ twoNotes, RecordLine Unit l := by
  have hline : RecordLine Unit noteText := by
    refine ⟨no_newline (), not_blank (), fun part more h _ hmore => ?_⟩
    refine ⟨_, if_neg fun he => hmore ?_⟩
    rwa [he, self_eq_append_right] at h
  simpa [twoNotes] using hline

theorem recover_twoNotes : ∃ s : RecoveredStorage Unit,
    recover (journalBytes twoNotes) true = .ok s ∧ s.visited = [(), ()] := by
  have hjou : journal twoNotes = written [(), ()] := rfl
  have hlast := getLast?_written [] () [()]
  rw [nil_append] at hlast
  rw [journalBytes, recover_visited, toList_ofList, hjou, linesFrom_written, nil_append,
    ← map_cons, decide_eq_true hlast]
  exact ⟨_, (readLines_encode [(), ()]).mpr ⟨{}, rfl, rfl⟩, rfl⟩

end Sample

open Sample

/-- The cut is in the second record, right before the letter of two bytes. -/
theorem cut_recovers_complete : ∃ s' : RecoveredStorage Unit,
    recover ((journalBytes twoNotes).extract 0 (utf8Len beforeLetter)) true = .ok s' ∧
      s'.visited = [(), ()].take (linesWithin (utf8Len beforeLetter) twoNotes) ∧
      (s'.ignoredTruncatedTail = true ↔ EndsInside (utf8Len beforeLetter) twoNotes) := by
  obtain ⟨s, hs, hvis⟩ := recover_twoNotes
  have hno : '\n' ∉ noteStart := fun hmem => no_newline () (mem_append_left _ hmem)
  have htail : unterminatedFrom [] beforeLetter = noteStart := by
    simp [beforeLetter, unterminatedFrom_append, unterminatedFrom,
      (unterminatedFrom_of_no_newline hno []).2]
  rw [← hvis]
  refine (cut_recovers_iff recordLine_note hs _ ?_).mpr ⟨.ofList beforeLetter, ?_, ?_⟩
  · rw [journalBytes, size_toUTF8, journal_twoNotes, utf8Len_append]
    omega
  · rw [journalBytes, journal_twoNotes, ofList_append, ← size_toUTF8, extract_append]
  · rw [toList_ofList, htail]
    exact fun h => Bool.noConfusion h.2

theorem split_character_unreadable :
    (∃ s : RecoveredStorage Unit, recover (journalBytes twoNotes) true = .ok s ∧
      s.visited = [(), ()]) ∧
      (recover ((journalBytes twoNotes).extract 0 (utf8Len beforeLetter + 1)) true :
        Except _ (RecoveredStorage Unit)) = .error .io := by
  refine ⟨recover_twoNotes, ?_⟩
  rw [journalBytes, journal_twoNotes]
  exact recover_inside_character _ _ (by decide) (by decide) _

end Reap.Storage
