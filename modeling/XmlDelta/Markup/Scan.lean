set_option autoImplicit false

namespace XmlDelta.Markup

abbrev Bytes := List UInt8

def bytes (s : String) : Bytes :=
  s.toList.map Char.toUInt8

def isSpace (b : UInt8) : Bool :=
  b == 0x20 || b == 0x09 || b == 0x0A || b == 0x0D

def trimEnd (s : Bytes) : Bytes :=
  (s.reverse.dropWhile isSpace).reverse

def isData (b : UInt8) : Bool :=
  b != '<'.toUInt8

def cutFrom {σ : Type} (step : σ → UInt8 → Option σ) (q : σ) (seen : Bytes) :
    Bytes → Option (Bytes × Bytes)
  | [] => none
  | b :: r =>
    match step q b with
    | none => some (seen.reverse, r)
    | some q' => cutFrom step q' (b :: seen) r

def cut {σ : Type} (step : σ → UInt8 → Option σ) (q : σ) (s : Bytes) : Option (Bytes × Bytes) :=
  cutFrom step q [] s

theorem cutFrom_length {σ : Type} {step : σ → UInt8 → Option σ} {q : σ} {seen s x r : Bytes}
    (h : cutFrom step q seen s = some (x, r)) :
    seen.length + s.length = x.length + 1 + r.length := by
  induction s generalizing q seen with
  | nil => simp [cutFrom] at h
  | cons b s ih =>
    simp only [cutFrom] at h
    split at h
    · simp only [Option.some.injEq, Prod.mk.injEq] at h
      simp only [← h.1, ← h.2, List.length_reverse, List.length_cons]
      omega
    · have := ih h
      simp only [List.length_cons] at this ⊢
      omega

theorem cut_length {σ : Type} {step : σ → UInt8 → Option σ} {q : σ} {s x r : Bytes}
    (h : cut step q s = some (x, r)) : s.length = x.length + 1 + r.length := by
  simpa using cutFrom_length h

def stopsAfter (ends : Bytes → Bool) (before : Bytes) (b : UInt8) : Option Bytes :=
  if b == '>'.toUInt8 && ends before then none else some (b :: before)

def endsCdata : Bytes → Bool
  | a :: b :: _ => a == ']'.toUInt8 && b == ']'.toUInt8
  | _ => false

def endsComment : Bytes → Bool
  | a :: b :: _ :: _ :: _ => a == '-'.toUInt8 && b == '-'.toUInt8
  | _ => false

def endsInstruction : Bytes → Bool
  | a :: _ => a == '?'.toUInt8
  | _ => false

def doctypeStep (depth : Nat) (b : UInt8) : Option Nat :=
  -- Inside a document type `<` opens and `>` closes one level; quotes do not matter.
  if b == '<'.toUInt8 then some (depth + 1)
  else if b == '>'.toUInt8 then
    match depth with
    | 0 => none
    | d + 1 => some d
  else some depth

def tagStep (quote : Option UInt8) (b : UInt8) : Option (Option UInt8) :=
  match quote with
  | some q => some (if b == q then none else some q)
  | none =>
    if b == '>'.toUInt8 then none
    else if b == '"'.toUInt8 || b == '\''.toUInt8 then some (some b)
    else some none

inductive Item where
  | text (raw : Bytes)
  | cdata (raw : Bytes)
  | skipped
  | instruction
  | declaration (content : Bytes)
  | opening (content : Bytes)
  | selfClosing (content : Bytes)
  | closing (name : Bytes)
  deriving DecidableEq

inductive ScanFault where
  | tagUnclosed
  | unknownMarkup
  | cdataUnclosed
  | commentUnclosed
  | doctypeUnclosed
  | doctypeUnnamed
  | instructionUnclosed
  deriving DecidableEq

namespace ScanFault

def message : ScanFault → String
  | tagUnclosed => "syntax error: tag not closed: `>` not found before end of input"
  | unknownMarkup => "syntax error: unknown or missed symbol in markup"
  | cdataUnclosed => "syntax error: CDATA not closed: `]]>` not found before end of input"
  | commentUnclosed => "syntax error: comment not closed: `-->` not found before end of input"
  | doctypeUnclosed => "syntax error: DOCTYPE not closed: `>` not found before end of input"
  | doctypeUnnamed =>
    "ill-formed document: `<!DOCTYPE>` declaration does not contain a name of a document type"
  | instructionUnclosed => "syntax error: processing instruction or xml declaration not closed: " ++
      "`?>` not found before end of input"

end ScanFault

structure Scanned where
  item : Item
  size : Nat
  rest : Bytes

abbrev ScanError := ScanFault × Nat

def lowerByte (b : UInt8) : UInt8 :=
  if 0x41 ≤ b && b ≤ 0x5A then b + 0x20 else b

def close (found : Option (Bytes × Bytes)) (unclosed : ScanFault) (extra : Nat)
    (item : Bytes → Except ScanError Item) : Except ScanError Scanned :=
  match found with
  | none => .error (unclosed, 0)
  | some (x, r) => (item x).map (⟨·, x.length + extra, r⟩)

theorem close_size {σ : Type} {step : σ → UInt8 → Option σ} {q : σ} {s : Bytes} {f : ScanFault}
    {n : Nat} {item : Bytes → Except ScanError Item} {x : Scanned}
    (h : close (cut step q s) f n item = .ok x) :
    x.rest.length < s.length ∧ s.length + n = x.size + 1 + x.rest.length := by
  unfold close at h
  split at h
  · cases h
  · rename_i y r hc
    have hl := cut_length hc
    cases hi : item y with
    | error e => simp [hi, Except.map] at h
    | ok i =>
      simp only [hi, Except.map, Except.ok.injEq] at h
      subst h
      simp only
      omega

def cdataItem (x : Bytes) : Except ScanError Item :=
  if (bytes "[CDATA[").isPrefixOf x then .ok (.cdata (x.drop 7).dropLast.dropLast)
  else .error (.cdataUnclosed, 0)

def commentItem (x : Bytes) : Except ScanError Item :=
  if (bytes "--").isPrefixOf x then .ok .skipped else .error (.commentUnclosed, 0)

def doctypeItem (x : Bytes) : Except ScanError Item :=
  if (bytes "doctype").isPrefixOf (x.map lowerByte) then
    if (x.drop 7).all isSpace then .error (.doctypeUnnamed, x.length + 2) else .ok .skipped
  else .error (.doctypeUnclosed, 0)

def scanDeclared (s : Bytes) : Except ScanError Scanned :=
  let kind := s.head?
  if kind == some '['.toUInt8 then
    close (cut (stopsAfter endsCdata) [] s) .cdataUnclosed 3 cdataItem
  else if kind == some '-'.toUInt8 then
    close (cut (stopsAfter endsComment) [] s) .commentUnclosed 3 commentItem
  else if kind == some 'D'.toUInt8 || kind == some 'd'.toUInt8 then
    close (cut doctypeStep 0 s) .doctypeUnclosed 3 doctypeItem
  else .error (.unknownMarkup, 0)

def isDeclaration (content : Bytes) : Bool :=
  (bytes "xml").isPrefixOf content && ((content.drop 3).head?.map isSpace).getD true

def instructionItem (x : Bytes) : Except ScanError Item :=
  if x.isEmpty then .error (.instructionUnclosed, 0)
  else .ok (if isDeclaration x.dropLast then .declaration x.dropLast else .instruction)

def scanInstruction (s : Bytes) : Except ScanError Scanned :=
  close (cut (stopsAfter endsInstruction) ['?'.toUInt8] s) .instructionUnclosed 3 instructionItem

def closingName (content : Bytes) : Bytes :=
  -- The name in an end tag; blanks after it are dropped unless there is nothing else.
  if content.all isSpace then content else trimEnd content

def tagItem (x : Bytes) : Item :=
  match x with
  | [] => .opening []
  | b :: name =>
    if b == '/'.toUInt8 then .closing (closingName name)
    else if x.getLast? == some '/'.toUInt8 then .selfClosing x.dropLast
    else .opening x

def scanTag (s : Bytes) : Except ScanError Scanned :=
  close (cut tagStep none s) .tagUnclosed 2 fun x => .ok (tagItem x)

def scanMarkup (s : Bytes) : Except ScanError Scanned :=
  match s with
  | [] => .error (.tagUnclosed, 0)
  | c :: u =>
    if c == '!'.toUInt8 then scanDeclared u
    else if c == '?'.toUInt8 then scanInstruction u
    else scanTag (c :: u)

def scan (s : Bytes) : Except ScanError (Option Scanned) :=
  match s with
  | [] => .ok none
  | b :: t =>
    if isData b = false then (scanMarkup t).map some
    else
      let run := s.takeWhile isData
      .ok (some ⟨.text run, run.length, s.dropWhile isData⟩)

theorem scanDeclared_size {s : Bytes} {x : Scanned} (h : scanDeclared s = .ok x) :
    x.rest.length < s.length ∧ s.length + 2 = x.size + x.rest.length := by
  unfold scanDeclared at h
  simp only at h
  split at h
  · have := close_size h
    omega
  · split at h
    · have := close_size h
      omega
    · split at h
      · have := close_size h
        omega
      · cases h

theorem scanMarkup_size {s : Bytes} {x : Scanned} (h : scanMarkup s = .ok x) :
    x.rest.length < s.length ∧ s.length + 1 = x.size + x.rest.length := by
  unfold scanMarkup at h
  split at h
  · cases h
  · split at h
    · have := scanDeclared_size h
      simp only [List.length_cons]
      omega
    · split at h
      · have := close_size h
        simp only [List.length_cons]
        omega
      · have := close_size h
        omega

theorem scan_size {s : Bytes} {x : Scanned} (h : scan s = .ok (some x)) :
    x.rest.length < s.length ∧ s.length = x.size + x.rest.length := by
  unfold scan at h
  split at h
  · cases h
  · rename_i b t
    split at h
    · cases hm : scanMarkup t with
      | error e => simp [hm, Except.map] at h
      | ok y =>
        simp only [hm, Except.map, Except.ok.injEq, Option.some.injEq] at h
        subst h
        have := scanMarkup_size hm
        simp only [List.length_cons]
        omega
    · rename_i hb
      simp only [Except.ok.injEq, Option.some.injEq] at h
      subst h
      have hb' : isData b = true := by simpa using hb
      have hle := (List.dropWhile_suffix isData (l := t)).length_le
      have hall := congrArg List.length (List.takeWhile_append_dropWhile (p := isData) (l := t))
      simp only [List.length_append] at hall
      simp only [List.dropWhile_cons_of_pos hb', List.takeWhile_cons_of_pos hb', List.length_cons]
      omega

end XmlDelta.Markup
