import Mathlib.Data.List.DropRight
import XmlDelta.Proofs.Except
import XmlDelta.Proofs.Jobs.File

set_option autoImplicit false

namespace XmlDelta.Jobs

open XmlDelta.Compare (Job)
open XmlDelta.Disk (Path Tree)
open XmlDelta.Settings (Fault)

def behindQuote : List Char → Option (List Char)
  | [] => none
  | '"' :: r => some r
  | '\\' :: _ :: r => behindQuote r
  | _ :: r => behindQuote r

theorem behindQuote_cons {c : Char} (quote : c ≠ '"') (slash : c ≠ '\\') (r : List Char) :
    behindQuote (c :: r) = behindQuote r := by
  rw [behindQuote]
  · exact fun same => quote same
  · exact fun _ _ same => absurd same slash

theorem behindQuote_escape (c : Char) (r : List Char) :
    behindQuote ('\\' :: c :: r) = behindQuote r := by
  rw [behindQuote]

theorem behindQuote_digit {c : Char} {n : Nat} (digit : Text.hexValue c = some n) (r : List Char) :
    behindQuote (c :: r) = behindQuote r := by
  apply behindQuote_cons
  · rintro rfl
    cases digit
  · rintro rfl
    cases digit

inductive Begins (s : List Char) : Prop where
  | closed {r : List Char} (next : Json.skipSpace s = ']' :: r)
  | object {r : List Char} (next : Json.skipSpace s = '\x7b' :: r)
  | list {r t u v : List Char} (next : Json.skipSpace s = '[' :: r)
      (quote : Json.skipSpace r = '"' :: t) (closing : behindQuote t = some u)
      (comma : Json.skipSpace u = ',' :: v)

section Json

open Json

theorem behindQuote_readHex4 {s r : List Char} {n : Nat} (read : readHex4 s = .ok (n, r)) :
    behindQuote s = behindQuote r := by
  unfold readHex4 at read
  dsimp only at read
  split at read
  · rename_i a b c d t
    split at read
    · rename_i first second third fourth
      cases read
      rw [behindQuote_digit first, behindQuote_digit second, behindQuote_digit third,
        behindQuote_digit fourth]
    · cases read
  · cases read

theorem behindQuote_readTrail {high : Nat} {s r : List Char} {c : Char}
    (read : readTrail high s = .ok (c, r)) : behindQuote s = behindQuote r := by
  unfold readTrail at read
  split at read
  · cases read
  · cases read
  · rename_i t
    split at read
    · cases read
    · rename_i low digits
      split at read
      · simp only [Except.ok.injEq, Prod.mk.injEq] at read
        rw [behindQuote_escape, behindQuote_readHex4 digits, read.2]
      · cases read
  · cases read

theorem behindQuote_jsonEscape {s r : List Char} {c : Char} (read : readEscape s = .ok (c, r)) :
    behindQuote ('\\' :: s) = behindQuote r := by
  unfold readEscape at read
  split at read
  · cases read
  · rename_i e t
    rw [behindQuote_escape]
    split at read
    · unfold readUnicode at read
      split at read
      · cases read
      · rename_i n u digits
        rw [behindQuote_readHex4 digits]
        split at read
        · cases read
        · split at read
          · exact behindQuote_readTrail read
          · cases read
            rfl
    · split at read
      · cases read
        rfl
      · cases read

theorem behindQuote_of_readTextFrom {seen s r : List Char} {v : String}
    (read : readTextFrom seen s = .ok (v, r)) : behindQuote s = some r := by
  fun_induction readTextFrom seen s with
  | case1 => cases read
  | case2 =>
    cases read
    rfl
  | case3 => cases read
  | case4 seen t d u escape _ ih => rw [behindQuote_jsonEscape escape, ih read]
  | case5 => cases read
  | case6 seen c t quote slash _ ih => rw [behindQuote_cons quote slash, ih read]

theorem skipSpace_skipSpace (s : List Char) : skipSpace (skipSpace s) = skipSpace s :=
  List.dropWhile_idempotent isSpace s

theorem quote_of_readString {s r : List Char} {v : String} (read : readString s = .ok (v, r)) :
    ∃ t, skipSpace s = '"' :: t ∧ behindQuote t = some r := by
  unfold readString at read
  split at read
  · cases read
  · rename_i c t next
    split at read
    · rename_i quote
      subst quote
      exact ⟨t, next, behindQuote_of_readTextFrom read⟩
    · cases read

theorem nextItem_eq_some {first : Bool} {s t : List Char} (next : nextItem first s = .ok (some t)) :
    if first then skipSpace s = t else ∃ r, skipSpace s = ',' :: r := by
  unfold nextItem at next
  split at next
  · cases next
  · rename_i c r start
    split at next
    · cases next
    · cases first with
      | true =>
        cases next
        exact start
      | false =>
        simp only [Bool.false_eq_true, if_false] at next ⊢
        split at next
        · rename_i comma
          exact ⟨r, comma ▸ start⟩
        · cases next

theorem readPart_eq_ok {α : Type} {item : List Char → Reading α} {count : Nat} {s r : List Char}
    {a : α} (read : readPart item count s = .ok (a, r)) :
    ∃ t, nextItem (count == 0) s = .ok (some t) ∧ item t = .ok (a, r) := by
  obtain ⟨next, found, read⟩ := bind_eq_ok_iff.mp read
  cases next with
  | none => cases read
  | some t => exact ⟨t, found, read⟩

theorem begins_of_readJob {s t r : List Char} {c : Char} {j : Job} (next : skipSpace s = c :: t)
    (read : readJob (c :: t) = .ok (j, r)) : Begins s := by
  unfold readJob at read
  rw [← next, skipSpace_skipSpace, next] at read
  dsimp only at read
  split at read
  · rename_i bracket
    subst bracket
    obtain ⟨⟨old, u⟩, first, read⟩ := bind_eq_ok_iff.mp read
    obtain ⟨⟨new, v⟩, second, -⟩ := bind_eq_ok_iff.mp read
    obtain ⟨w, start, first⟩ := readPart_eq_ok first
    obtain ⟨x, behind, -⟩ := readPart_eq_ok second
    obtain ⟨y, quote, closing⟩ := quote_of_readString first
    obtain rfl : skipSpace t = w := nextItem_eq_some start
    obtain ⟨z, comma⟩ : ∃ z, skipSpace u = ',' :: z := nextItem_eq_some behind
    exact .list next (skipSpace_skipSpace t ▸ quote) closing comma
  · split at read
    · rename_i brace
      subst brace
      exact .object next
    · cases read

theorem begins_of_readItems {fuel : Nat} {s r : List Char} {jobs : List Job}
    (read : readItems readJob fuel [] s = .ok (jobs, r)) : Begins s := by
  cases fuel with
  | zero => cases read
  | succ n =>
    obtain ⟨next, found, read⟩ := bind_eq_ok_iff.mp read
    unfold nextItem at found
    split at found
    · cases found
    · rename_i c t start
      split at found
      · rename_i bracket
        exact .closed (bracket ▸ start)
      · cases found
        obtain ⟨⟨j, u⟩, read, -⟩ := bind_eq_ok_iff.mp read
        exact begins_of_readJob start read

theorem exists_begins_of_ofJson {text : String} {jobs : List Job} (read : ofJson text = .ok jobs) :
    ∃ s, skipSpace text.toList = '[' :: s ∧ Begins s := by
  obtain ⟨⟨jobs, rest⟩, read, -⟩ := bind_eq_ok_iff.mp read
  unfold readList at read
  split at read
  · cases read
  · rename_i c s start
    split at read
    · rename_i bracket
      exact ⟨s, bracket ▸ start, begins_of_readItems read⟩
    · cases read

end Json

section Toml

open Toml

theorem behindQuote_readHex {count value n : Nat} {s r : List Char}
    (read : readHex count value s = some (n, r)) : behindQuote s = behindQuote r := by
  induction count generalizing value s with
  | zero =>
    cases read
    rfl
  | succ count ih =>
    cases s with
    | nil => cases read
    | cons c t =>
      obtain ⟨d, digit, read⟩ := Option.bind_eq_some_iff.mp read
      rw [behindQuote_digit digit, ih read]

theorem behindQuote_tomlEscape {s r : List Char} {c : Char} (read : readEscape s = some (c, r)) :
    behindQuote ('\\' :: s) = behindQuote r := by
  cases s with
  | nil => cases read
  | cons e t =>
    rw [behindQuote_escape]
    unfold readEscape at read
    dsimp only at read
    split at read
    · obtain ⟨⟨n, u⟩, digits, read⟩ := Option.bind_eq_some_iff.mp read
      obtain ⟨d, -, same⟩ := Option.map_eq_some_iff.mp read
      cases same
      exact behindQuote_readHex digits
    · obtain ⟨d, -, same⟩ := Option.map_eq_some_iff.mp read
      cases same
      rfl

theorem behindQuote_of_readBasic {seen s r : List Char} {v : String}
    (read : readBasic seen s = .ok (v, r)) : behindQuote s = some r := by
  fun_induction readBasic seen s with
  | case1 => cases read
  | case2 =>
    cases read
    rfl
  | case3 => cases read
  | case4 seen t d u escape _ ih => rw [behindQuote_tomlEscape escape, ih read]
  | case5 seen c t quote slash _ ih => rw [behindQuote_cons quote slash, ih read]
  | case6 => cases read

def beginsNoKey (c : Char) : Bool :=
  !isBare c && c != '"' && c != '\''

theorem exists_skipBlanks {s r : List Char} {c : Char} (next : Json.skipSpace s = c :: r) :
    ∃ d t, skipBlanks s = d :: t ∧ (d = c ∧ t = r ∨ d = '\n' ∨ d = '\r') := by
  induction s with
  | nil => cases next
  | cons a s ih =>
    by_cases blank : isBlank a = true
    · have space : Json.isSpace a = true := by
        simp only [isBlank, Bool.or_eq_true, decide_eq_true_eq] at blank
        rcases blank with rfl | rfl <;> rfl
      rw [Json.skipSpace, List.dropWhile_cons_of_pos space] at next
      rw [skipBlanks, List.dropWhile_cons_of_pos blank]
      exact ih next
    · have stays : skipBlanks (a :: s) = a :: s := List.dropWhile_cons_of_neg blank
      refine ⟨a, s, stays, ?_⟩
      by_cases space : Json.isSpace a = true
      · simp only [isBlank, Bool.or_eq_true, decide_eq_true_eq, not_or] at blank
        simpa [Json.isSpace, blank] using Or.inr space
      · rw [Json.skipSpace, List.dropWhile_cons_of_neg space] at next
        exact .inl (List.cons.inj next)

theorem readName_refused {c : Char} (none : beginsNoKey c = true) (r : List Char) :
    readName (c :: r) = .error .expectedKey := by
  simp only [beginsNoKey, Bool.and_eq_true, Bool.not_eq_true', bne_iff_ne, ne_eq] at none
  obtain ⟨⟨bare, quote⟩, single⟩ := none
  have unquoted : readString? false (c :: r) = Option.none := by
    unfold readString?
    split
    · rename_i same
      exact absurd (List.cons.inj same).1 quote
    · rename_i same
      exact absurd (List.cons.inj same).1 single
    · rfl
  rw [readName, unquoted]
  simp [bare]

theorem readKey_refused {s r : List Char} {c : Char} (next : skipBlanks s = c :: r)
    (none : beginsNoKey c = true) : readKey s = .error .expectedKey := by
  rw [readKey, readNames, next, readName_refused none]
  rfl

theorem readHeader_refused {s r : List Char} {c : Char} (next : skipBlanks s = c :: r)
    (none : beginsNoKey c = true) (double : Bool) : ∃ f, readHeader double s = .error f := by
  rw [readHeader, readKey_refused next none]
  exact ⟨_, rfl⟩

theorem readHeader_refused_of_comma {r t u v : List Char} (quote : Json.skipSpace r = '"' :: t)
    (closing : behindQuote t = some u) (comma : Json.skipSpace u = ',' :: v) :
    ∃ f, readHeader true r = .error f := by
  obtain ⟨d, t', starts, ⟨rfl, rfl⟩ | line⟩ := exists_skipBlanks quote
  · have name : readName ('"' :: t') = readBasic [] t' := rfl
    cases read : readBasic [] t' with
    | error f =>
      rw [readHeader, readKey, readNames, starts, name, read]
      exact ⟨f, rfl⟩
    | ok pair =>
      obtain ⟨k, u'⟩ := pair
      obtain rfl : u = u' := Option.some.inj (closing.symm.trans (behindQuote_of_readBasic read))
      rw [readHeader, readKey, readNames, starts, name, read]
      obtain ⟨e, w, behind, ⟨rfl, -⟩ | rfl | rfl⟩ := exists_skipBlanks comma
      all_goals
        simp only [bind, Except.bind, behind]
        exact ⟨_, rfl⟩
  · apply readHeader_refused starts
    rcases line with rfl | rfl <;> decide

theorem Begins.exists_skipBlanks {s : List Char} (begins : Begins s) :
    ∃ c r, skipBlanks s = c :: r ∧ beginsNoKey c = true := by
  obtain ⟨c, r, next, none⟩ : ∃ c r, Json.skipSpace s = c :: r ∧ beginsNoKey c = true := by
    cases begins with
    | closed next => exact ⟨_, _, next, by decide⟩
    | object next => exact ⟨_, _, next, by decide⟩
    | list next => exact ⟨_, _, next, by decide⟩
  obtain ⟨d, t, starts, ⟨rfl, -⟩ | rfl | rfl⟩ := Jobs.exists_skipBlanks next
  · exact ⟨d, t, starts, none⟩
  · exact ⟨_, t, starts, by decide⟩
  · exact ⟨_, t, starts, by decide⟩

theorem Begins.readStatement {s : List Char} (begins : Begins s) :
    ∃ f, Toml.readStatement ('[' :: s) = .error f := by
  unfold Toml.readStatement
  split
  · rename_i r same
    obtain rfl : s = '[' :: r := (List.cons.inj same).2
    have stays : Json.skipSpace ('[' :: r) = '[' :: r := Json.skipSpace_cons (by decide) r
    cases begins with
    | closed next => cases stays.symm.trans next
    | object next => cases stays.symm.trans next
    | list next quote closing comma =>
      cases stays.symm.trans next
      exact readHeader_refused_of_comma quote closing comma
  · rename_i same
    obtain ⟨c, r, starts, none⟩ := begins.exists_skipBlanks
    cases same
    exact readHeader_refused starts none false
  · rename_i other
    exact absurd rfl (other s)

theorem skipGap_of_skipSpace {s r : List Char} (next : Json.skipSpace s = '[' :: r) :
    skipGap s = '[' :: r ∨ ∃ t, skipGap s = '\r' :: t := by
  unfold skipGap
  induction s with
  | nil => cases next
  | cons a s ih =>
    by_cases space : Json.isSpace a = true
    · rw [Json.skipSpace, List.dropWhile_cons_of_pos space] at next
      simp only [Json.isSpace, Bool.or_eq_true, decide_eq_true_eq] at space
      obtain ((rfl | rfl) | rfl) | rfl := space
      · exact ih next
      · exact ih next
      · exact ih next
      · -- A carriage return is a line end before a line feed only.
        cases feed : startsLine s with
        | true =>
          simp only [skipLines, feed]
          exact ih next
        | false => exact .inr ⟨s, by simp [skipLines, feed, isBlank]⟩
    · rw [Json.skipSpace, List.dropWhile_cons_of_neg space] at next
      cases next
      exact .inl (skipGap_cons (by decide) r)

theorem readStatements_refused {s r : List Char} (start : Json.skipSpace s = '[' :: r)
    (begins : Begins r) (n : Nat) : ∃ f, readStatements (n + 1) s = .error f := by
  rcases skipGap_of_skipSpace start with bracket | ⟨t, feed⟩
  · obtain ⟨f, refused⟩ := begins.readStatement
    refine ⟨f, ?_⟩
    simp only [readStatements, bracket, refused, bind, Except.bind]
  · have next : skipBlanks ('\r' :: t) = '\r' :: t := rfl
    have refused : Toml.readStatement ('\r' :: t) = .error .expectedKey := by
      change (readEntry readValue ('\r' :: t) >>= _) = _
      rw [readEntry, readKey_refused next (by decide)]
      rfl
    refine ⟨.expectedKey, ?_⟩
    simp only [readStatements, feed, refused, bind, Except.bind]

theorem exists_ofToml_error {text : String} {r : List Char}
    (start : Json.skipSpace text.toList = '[' :: r) (begins : Begins r) :
    ∃ f, ofToml text = .error f := by
  have unmarked : dropMark text.toList = text.toList := by
    cases letters : text.toList with
    | nil => rfl
    | cons c s =>
      have first : Json.isSpace c = true ∨ c = '[' := by
        by_cases space : Json.isSpace c = true
        · exact .inl space
        · rw [letters, Json.skipSpace, List.dropWhile_cons_of_neg space] at start
          exact .inr (List.cons.inj start).1
      have noMark : c.toNat ≠ 0xFEFF := by
        simp only [Json.isSpace, Bool.or_eq_true, decide_eq_true_eq] at first
        obtain (((rfl | rfl) | rfl) | rfl) | rfl := first
        all_goals decide
      rw [dropMark, if_neg noMark]
  obtain ⟨f, refused⟩ := readStatements_refused start begins text.toList.length
  rw [ofToml, parse]
  simp only [unmarked, refused, bind, Except.bind]
  exact ⟨f, rfl⟩

end Toml

theorem exists_ofToml_error_of_ofJson {text : String} {jobs : List Job}
    (read : ofJson text = .ok jobs) : ∃ f, ofToml text = .error f := by
  obtain ⟨r, start, begins⟩ := exists_begins_of_ofJson read
  exact exists_ofToml_error start begins

def inTurn (first second : Format) (text : String) : Except Fault (List Job) :=
  match readAs text first with
  | .ok jobs => .ok jobs
  | .error _ => readAs text second

theorem readAs_json_eq_ok_iff {text : String} {jobs : List Job} :
    readAs text .json = .ok jobs ↔ ofJson text = .ok jobs :=
  mapError_eq_ok_iff

theorem exists_readAs_toml_error {text : String} {jobs : List Job}
    (read : readAs text .json = .ok jobs) : ∃ f, readAs text .toml = .error f := by
  obtain ⟨f, refused⟩ := exists_ofToml_error_of_ofJson (readAs_json_eq_ok_iff.mp read)
  exact ⟨.toml f, mapError_eq_error_iff.mpr ⟨f, refused, rfl⟩⟩

theorem not_readAs_both {text : String} {jobs jobs' : List Job}
    (json : readAs text .json = .ok jobs) : readAs text .toml ≠ .ok jobs' := by
  obtain ⟨f, refused⟩ := exists_readAs_toml_error json
  rw [refused]
  exact nofun

theorem inTurn_eq_error_iff {first second : Format} {text : String} {f : Fault} :
    inTurn first second text = .error f ↔
      (∃ g, readAs text first = .error g) ∧ readAs text second = .error f := by
  rw [inTurn]
  cases readAs text first with
  | ok jobs => simp
  | error g => simp

theorem inTurn_eq_ok_iff {first second : Format} {text : String}
    (apart : ∀ jobs jobs', readAs text first = .ok jobs → readAs text second ≠ .ok jobs')
    {jobs : List Job} :
    inTurn first second text = .ok jobs ↔
      readAs text first = .ok jobs ∨ readAs text second = .ok jobs := by
  rw [inTurn]
  cases read : readAs text first with
  | ok jobs' => simp [apart jobs' jobs read]
  | error g => simp

theorem ofText_oneFormat (text : String) :
    (∀ jobs jobs', ofText (some .json) text = .ok jobs → ofText (some .toml) text ≠ .ok jobs') ∧
      (∀ jobs, ofText none text = .ok jobs ↔
        ofText (some .json) text = .ok jobs ∨ ofText (some .toml) text = .ok jobs) ∧
      (∀ jobs, inTurn .toml .json text = .ok jobs ↔ ofText none text = .ok jobs) ∧
      (∀ f, ofText none text = .error f ↔
        (∃ g, ofText (some .json) text = .error g) ∧ ofText (some .toml) text = .error f) ∧
      ∀ (t : Tree) (p : Path), Path.extension p = none → t.readText p = .ok text →
        entries t p = ofText none text := by
  have apart : ∀ jobs jobs', readAs text .json = .ok jobs → readAs text .toml ≠ .ok jobs' :=
    fun jobs jobs' json => not_readAs_both json
  have other : ∀ jobs jobs', readAs text .toml = .ok jobs → readAs text .json ≠ .ok jobs' :=
    fun jobs jobs' toml json => apart jobs' jobs json toml
  refine ⟨apart, fun jobs => inTurn_eq_ok_iff apart, fun jobs => ?_, fun f => inTurn_eq_error_iff,
    fun t p bare read => ?_⟩
  · rw [inTurn_eq_ok_iff other, or_comm]
    exact (inTurn_eq_ok_iff apart).symm
  · have known : formatOf p = .ok none := by
      rw [formatOf, bare]
    rw [entries_of_known known, read]
    rfl

theorem ofText_oneFormat_header :
    let text := "[[\"a\", \"b\", []]]"
    let t : Tree := { root := .directory [("jobs", .file (Text.Utf8.encode text.toList))] }
    (ofText (some .json) text = .ok [⟨"a", "b", []⟩] ∧ Path.extension "jobs" = none ∧
        t.readText "jobs" = .ok text) ∧
      entries t "jobs" = .ok [⟨"a", "b", []⟩] ∧
      inTurn .toml .json text = .ok [⟨"a", "b", []⟩] ∧
      ∀ jobs, ofText (some .toml) text ≠ .ok jobs := by
  intro text t
  have json : ofText (some .json) text = .ok [⟨"a", "b", []⟩] := by decide +kernel
  have bare : Path.extension "jobs" = none := by decide +kernel
  have read : t.readText "jobs" = .ok text := by decide +kernel
  obtain ⟨apart, either, turned, -, file⟩ := ofText_oneFormat text
  have sniffed := (either _).mpr (.inl json)
  exact ⟨⟨json, bare, read⟩, (file t "jobs" bare read).trans sniffed, (turned _).mpr sniffed,
    fun jobs => apart _ jobs json⟩

end XmlDelta.Jobs
