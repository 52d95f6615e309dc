import XmlDelta.Text.CodePage
import XmlDelta.Text.Utf8

set_option autoImplicit false

namespace XmlDelta.Text

inductive MultiByte where
  | gbk
  | gb18030
  | big5
  | eucJp
  | iso2022Jp
  | shiftJis
  | eucKr
  deriving DecidableEq, Repr

/-- The tables of these encodings come from elsewhere. `decode` reads bytes from the first one on
that is not plain ASCII. -/
class EastAsian where
  decode : MultiByte → List UInt8 → Option (List Char)

instance withoutTables : EastAsian :=
  -- Without tables nothing beyond ASCII can be read.
  ⟨fun _ _ => none⟩

namespace MultiByte

def all : List MultiByte :=
  [gbk, gb18030, big5, eucJp, iso2022Jp, shiftJis, eucKr]

def name : MultiByte → String
  | gbk => "GBK"
  | gb18030 => "gb18030"
  | big5 => "Big5"
  | eucJp => "EUC-JP"
  | iso2022Jp => "ISO-2022-JP"
  | shiftJis => "Shift_JIS"
  | eucKr => "EUC-KR"

def labels : MultiByte → List String
  | gbk =>
    ["chinese", "csgb2312", "csiso58gb231280", "gb2312", "gb_2312", "gb_2312-80", "gbk",
     "iso-ir-58", "x-gbk"]
  | gb18030 => ["gb18030"]
  | big5 => ["big5", "big5-hkscs", "cn-big5", "csbig5", "x-x-big5"]
  | eucJp => ["cseucpkdfmtjapanese", "euc-jp", "x-euc-jp"]
  | iso2022Jp => ["csiso2022jp", "iso-2022-jp"]
  | shiftJis =>
    ["csshiftjis", "ms932", "ms_kanji", "shift-jis", "shift_jis", "sjis", "windows-31j", "x-sjis"]
  | eucKr =>
    ["cseuckr", "csksc56011987", "euc-kr", "iso-ir-149", "korean", "ks_c_5601-1987",
     "ks_c_5601-1989", "ksc5601", "ksc_5601", "windows-949"]

def isPlain (m : MultiByte) (b : UInt8) : Bool :=
  -- Shifts are ASCII, too, but ISO-2022-JP reads on in another way behind them.
  b < 0x80 && !(m == iso2022Jp && (b == 0x0E || b == 0x0F || b == 0x1B))

def decode [EastAsian] (m : MultiByte) (s : List UInt8) : Option (List Char) :=
  let plain := (s.takeWhile m.isPlain).map fun b => Char.ofNat b.toNat
  match s.dropWhile m.isPlain with
  | [] => some plain
  | rest => (EastAsian.decode m rest).map (plain ++ ·)

end MultiByte

inductive Encoding where
  | utf8
  | utf16le
  | utf16be
  | codePage (page : CodePage)
  | multiByte (kind : MultiByte)
  | replacement
  | userDefined
  deriving DecidableEq, Repr

namespace Encoding

def all : List Encoding :=
  [utf8, utf16le, utf16be] ++ CodePage.all.map codePage ++ MultiByte.all.map multiByte ++
    [replacement, userDefined]

def name : Encoding → String
  | utf8 => "UTF-8"
  | utf16le => "UTF-16LE"
  | utf16be => "UTF-16BE"
  | codePage p => p.name
  | multiByte m => m.name
  | replacement => "replacement"
  | userDefined => "x-user-defined"

def labels : Encoding → List String
  | utf8 => ["unicode-1-1-utf-8", "unicode11utf8", "unicode20utf8", "utf-8", "utf8",
      "x-unicode20utf8"]
  | utf16le => ["csunicode", "iso-10646-ucs-2", "ucs-2", "unicode", "unicodefeff", "utf-16",
      "utf-16le"]
  | utf16be => ["unicodefffe", "utf-16be"]
  | codePage p => p.labels
  | multiByte m => m.labels
  | replacement => ["csiso2022kr", "hz-gb-2312", "iso-2022-cn", "iso-2022-cn-ext", "iso-2022-kr",
      "replacement"]
  | userDefined => ["x-user-defined"]

def isLabelBlank (b : UInt8) : Bool :=
  b == 0x09 || b == 0x0A || b == 0x0C || b == 0x0D || b == 0x20

def lowerByte (b : UInt8) : UInt8 :=
  if 0x41 ≤ b && b ≤ 0x5A then b + 0x20 else b

def ofLabel? (raw : List UInt8) : Option Encoding :=
  let bare := ((raw.dropWhile isLabelBlank).reverse.dropWhile isLabelBlank).reverse
  let key := bare.map fun b => Char.ofNat (lowerByte b).toNat
  all.find? fun e => e.labels.any fun l => l.toList == key

def units (big : Bool) : List UInt8 → Option (List Nat)
  | [] => some []
  | [_] => none
  | a :: b :: r =>
    (units big r).map ((if big then a.toNat * 256 + b.toNat else b.toNat * 256 + a.toNat) :: ·)

def ofUnits : List Nat → Option (List Char)
  | [] => some []
  | u :: r =>
    if 0xD800 ≤ u && u ≤ 0xDBFF then
      match r with
      | v :: r =>
        if 0xDC00 ≤ v && v ≤ 0xDFFF then
          (ofUnits r).map (Char.ofNat (0x10000 + (u - 0xD800) * 0x400 + (v - 0xDC00)) :: ·)
        else none
      | [] => none
    else if 0xDC00 ≤ u && u ≤ 0xDFFF then none
    else (ofUnits r).map (Char.ofNat u :: ·)

def userChar (b : UInt8) : Char :=
  if b < 0x80 then Char.ofNat b.toNat else Char.ofNat (0xF700 + b.toNat)

def decodeChars [EastAsian] : Encoding → List UInt8 → Option (List Char)
  | utf8, s => Utf8.decode s
  | utf16le, s => (units false s).bind ofUnits
  | utf16be, s => (units true s).bind ofUnits
  | codePage p, s => p.decode s
  | multiByte m, s => m.decode s
  -- What stands for encodings that are not read any more has no text but the empty one.
  | replacement, s => if s.isEmpty then some [] else none
  | userDefined, s => some (s.map userChar)

def decode [EastAsian] (e : Encoding) (s : List UInt8) : Option String :=
  (e.decodeChars s).map String.ofList

end Encoding

end XmlDelta.Text
