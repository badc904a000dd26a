import Mathlib.Data.List.Infix
import Mathlib.Tactic.Lemma

/-!
Glyph scanners for the encodings a connection can have.

A scanner takes a buffer of bytes and the position of a glyph, and returns the position after
it; at the end of the buffer it returns no position (the source's `npos`). A byte sequence it
does not know is an error with its place and bytes; a read past the end of the buffer has no
defined result and is a fault of its own.
-/

namespace DbCoursework.Encodings

inductive EncodingGroup
  | MONOBYTE | BIG5 | EUC_CN | EUC_JP | EUC_JIS_2004 | EUC_KR | EUC_TW | GB18030 | GBK | JOHAB
  | MULE_INTERNAL | SJIS | SHIFT_JIS_2004 | UHC | UTF8
  deriving DecidableEq

inductive Fault
  | encoding (name : String) (start : ℕ) (bytes : List UInt8)
  | outOfBounds (offset : ℕ)
  deriving DecidableEq

/-- The text of an encoding error; the bytes are in hexadecimal without padding. -/
def describeBytes (bytes : List UInt8) : String :=
  String.intercalate " " (bytes.map fun b => "0x" ++ String.ofList (Nat.toDigits 16 b.toNat))

def Fault.what : Fault → String
  | encoding name start bytes =>
    "Invalid byte sequence for encoding " ++ name ++ " at byte " ++ toString start ++ ": " ++
      describeBytes bytes
  | outOfBounds _ => ""

abbrev Scan := Except Fault (Option ℕ)

def getByte (buffer : List UInt8) (offset : ℕ) : Except Fault UInt8 :=
  match buffer[offset]? with
  | some b => .ok b
  | none => .error (.outOfBounds offset)

/-- The bytes an error message shows. -/
def getBytes (buffer : List UInt8) : ℕ → ℕ → Except Fault (List UInt8)
  | _, 0 => .ok []
  | start, count + 1 => do
    let b ← getByte buffer start
    let bs ← getBytes buffer (start + 1) count
    return b :: bs

def throwForEncodingError (name : String) (buffer : List UInt8) (start count : ℕ) : Scan := do
  let bytes ← getBytes buffer start count
  throw (.encoding name start bytes)

abbrev betweenInc (value bottom top : UInt8) : Prop := bottom ≤ value ∧ value ≤ top

variable (buffer : List UInt8) (start : ℕ)

def nextSeqForEucJplike (name : String) : Scan :=
  if start ≥ buffer.length then .ok none
  else do
    let byte1 ← getByte buffer start
    if byte1 < 0x80 then return some (start + 1)
    else if start + 2 > buffer.length then throwForEncodingError name buffer start 1
    else do
      let byte2 ← getByte buffer (start + 1)
      if byte1 = 0x8e then
        if ¬ betweenInc byte2 0xa1 0xfe then throwForEncodingError name buffer start 2
        else return some (start + 2)
      else if betweenInc byte1 0xa1 0xfe then
        if ¬ betweenInc byte2 0xa1 0xfe then throwForEncodingError name buffer start 2
        else return some (start + 2)
      else if byte1 = 0x8f ∧ start + 3 ≤ buffer.length then do
        let byte3 ← getByte buffer (start + 2)
        if ¬ betweenInc byte2 0xa1 0xfe ∨ ¬ betweenInc byte3 0xa1 0xfe then
          throwForEncodingError name buffer start 3
        else return some (start + 3)
      else throwForEncodingError name buffer start 1

def nextSeqForSjislike (name : String) : Scan :=
  if start ≥ buffer.length then .ok none
  else do
    let byte1 ← getByte buffer start
    if byte1 < 0x80 ∨ betweenInc byte1 0xa1 0xdf then return some (start + 1)
    else if ¬ betweenInc byte1 0x81 0x9f ∧ ¬ betweenInc byte1 0xe0 0xfc then
      throwForEncodingError name buffer start 1
    else if start + 2 > buffer.length then
      throwForEncodingError name buffer start (buffer.length - start)
    else do
      let byte2 ← getByte buffer (start + 1)
      if byte2 = 0x7f then throwForEncodingError name buffer start 2
      else if betweenInc byte2 0x40 0x9e ∨ betweenInc byte2 0x9f 0xfc then
        return some (start + 2)
      else throwForEncodingError name buffer start 2

def scanMonobyte : Scan :=
  if start ≥ buffer.length then .ok none else .ok (some (start + 1))

def scanBig5 : Scan :=
  if start ≥ buffer.length then .ok none
  else do
    let byte1 ← getByte buffer start
    if byte1 < 0x80 then return some (start + 1)
    else if ¬ betweenInc byte1 0x81 0xfe ∨ start + 2 > buffer.length then
      throwForEncodingError "BIG5" buffer start 1
    else do
      let byte2 ← getByte buffer (start + 1)
      if ¬ betweenInc byte2 0x40 0x7e ∧ ¬ betweenInc byte2 0xa1 0xfe then
        throwForEncodingError "BIG5" buffer start 2
      else return some (start + 2)

def scanEucCn : Scan :=
  if start ≥ buffer.length then .ok none
  else do
    let byte1 ← getByte buffer start
    if byte1 < 0x80 then return some (start + 1)
    else if ¬ betweenInc byte1 0xa1 0xf7 ∨ start + 2 > buffer.length then
      throwForEncodingError "EUC_CN" buffer start 1
    else do
      let byte2 ← getByte buffer (start + 1)
      if ¬ betweenInc byte2 0xa1 0xfe then throwForEncodingError "EUC_CN" buffer start 2
      else return some (start + 2)

/-- The second error shows one byte only. -/
def scanEucKr : Scan :=
  if start ≥ buffer.length then .ok none
  else do
    let byte1 ← getByte buffer start
    if byte1 < 0x80 then return some (start + 1)
    else if ¬ betweenInc byte1 0xa1 0xfe ∨ start + 2 > buffer.length then
      throwForEncodingError "EUC_KR" buffer start 1
    else do
      let byte2 ← getByte buffer (start + 1)
      if ¬ betweenInc byte2 0xa1 0xfe then throwForEncodingError "EUC_KR" buffer start 1
      else return some (start + 2)

/-- The errors name `EUC_KR`. -/
def scanEucTw : Scan :=
  if start ≥ buffer.length then .ok none
  else do
    let byte1 ← getByte buffer start
    if byte1 < 0x80 then return some (start + 1)
    else if start + 2 > buffer.length then throwForEncodingError "EUC_KR" buffer start 1
    else do
      let byte2 ← getByte buffer (start + 1)
      if betweenInc byte1 0xa1 0xfe then
        if ¬ betweenInc byte2 0xa1 0xfe then throwForEncodingError "EUC_KR" buffer start 2
        else return some (start + 2)
      else if byte1 ≠ 0x8e ∨ start + 4 > buffer.length then
        throwForEncodingError "EUC_KR" buffer start 1
      else do
        let byte3 ← getByte buffer (start + 2)
        let byte4 ← getByte buffer (start + 3)
        if betweenInc byte2 0xa1 0xb0 ∧ betweenInc byte3 0xa1 0xfe ∧
            betweenInc byte4 0xa1 0xfe then
          return some (start + 4)
        else throwForEncodingError "EUC_KR" buffer start 4

/-- Bytes from `0x80` on are taken for whole glyphs, and the others for lead bytes. -/
def scanGb18030 : Scan :=
  if start ≥ buffer.length then .ok none
  else do
    let byte1 ← getByte buffer start
    if betweenInc byte1 0x80 0xff then return some (start + 1)
    else if start + 2 > buffer.length then
      throwForEncodingError "GB18030" buffer start (buffer.length - start)
    else do
      let byte2 ← getByte buffer (start + 1)
      if betweenInc byte2 0x40 0xfe then
        if byte2 = 0x7f then throwForEncodingError "GB18030" buffer start 2
        else return some (start + 2)
      else if start + 4 > buffer.length then
        throwForEncodingError "GB18030" buffer start (buffer.length - start)
      else do
        let byte3 ← getByte buffer (start + 2)
        let byte4 ← getByte buffer (start + 3)
        if betweenInc byte2 0x30 0x39 ∧ betweenInc byte3 0x81 0xfe ∧
            betweenInc byte4 0x30 0x39 then
          return some (start + 4)
        else throwForEncodingError "GB18030" buffer start 4

/-- The rows of the GBK table. -/
abbrev gbkPair (byte1 byte2 : UInt8) : Prop :=
  (betweenInc byte1 0xa1 0xa9 ∧ betweenInc byte2 0xa1 0xfe) ∨
  (betweenInc byte1 0xb0 0xf7 ∧ betweenInc byte2 0xa1 0xfe) ∨
  (betweenInc byte1 0x81 0xa0 ∧ betweenInc byte2 0x40 0xfe ∧ byte2 ≠ 0x7f) ∨
  (betweenInc byte1 0xaa 0xfe ∧ betweenInc byte2 0x40 0xa0 ∧ byte2 ≠ 0x7f) ∨
  (betweenInc byte1 0xa8 0xa9 ∧ betweenInc byte2 0x40 0xa0 ∧ byte2 ≠ 0x7f) ∨
  (betweenInc byte1 0xaa 0xaf ∧ betweenInc byte2 0xa1 0xfe) ∨
  (betweenInc byte1 0xf8 0xfe ∧ betweenInc byte2 0xa1 0xfe) ∨
  (betweenInc byte1 0xa1 0xa7 ∧ betweenInc byte2 0x40 0xa0 ∧ byte2 ≠ 0x7f)

def scanGbk : Scan :=
  if start ≥ buffer.length then .ok none
  else do
    let byte1 ← getByte buffer start
    if byte1 < 0x80 then return some (start + 1)
    else if start + 2 > buffer.length then throwForEncodingError "GBK" buffer start 1
    else do
      let byte2 ← getByte buffer (start + 1)
      if gbkPair byte1 byte2 then return some (start + 2)
      else throwForEncodingError "GBK" buffer start 2

/-- The second byte is read from the place of the first. -/
def scanJohab : Scan :=
  if start ≥ buffer.length then .ok none
  else do
    let byte1 ← getByte buffer start
    if byte1 < 0x80 then return some (start + 1)
    else if start + 2 > buffer.length then throwForEncodingError "JOHAB" buffer start 1
    else do
      let byte2 ← getByte buffer start
      if (betweenInc byte1 0x84 0xd3 ∧ (betweenInc byte2 0x41 0x7e ∨ betweenInc byte2 0x81 0xfe)) ∨
          ((betweenInc byte1 0xd8 0xde ∨ betweenInc byte1 0xe0 0xf9) ∧
            (betweenInc byte2 0x31 0x7e ∨ betweenInc byte2 0x91 0xfe)) then
        return some (start + 2)
      else throwForEncodingError "JOHAB" buffer start 2

/-- The last byte of a four-byte glyph is read one place too far; `and` reads it only after
the tests before it. -/
def scanMuleInternal : Scan :=
  if start ≥ buffer.length then .ok none
  else do
    let byte1 ← getByte buffer start
    if byte1 < 0x80 then return some (start + 1)
    else if start + 2 > buffer.length then throwForEncodingError "MULE_INTERNAL" buffer start 1
    else do
      let byte2 ← getByte buffer (start + 1)
      if betweenInc byte1 0x81 0x8d ∧ byte2 ≥ 0xa0 then return some (start + 2)
      else if start + 3 > buffer.length then
        throwForEncodingError "MULE_INTERNAL" buffer start 2
      else if ((byte1 = 0x9a ∧ betweenInc byte2 0xa0 0xdf) ∨
          (byte1 = 0x9b ∧ betweenInc byte2 0xe0 0xef) ∨
          (betweenInc byte1 0x90 0x99 ∧ byte2 ≥ 0xa0)) ∧ byte2 ≥ 0xa0 then
        return some (start + 3)
      else if start + 4 > buffer.length then
        throwForEncodingError "MULE_INTERNAL" buffer start 3
      else if (byte1 = 0x9c ∧ betweenInc byte2 0xf0 0xf4) ∨
          (byte1 = 0x9d ∧ betweenInc byte2 0xf5 0xfe) then do
        let byte3 ← getByte buffer (start + 2)
        if byte3 ≥ 0xa0 then do
          let byte4 ← getByte buffer (start + 4)
          if byte4 ≥ 0xa0 then return some (start + 4)
          else throwForEncodingError "MULE_INTERNAL" buffer start 4
        else throwForEncodingError "MULE_INTERNAL" buffer start 4
      else throwForEncodingError "MULE_INTERNAL" buffer start 4

def scanUhc : Scan :=
  if start ≥ buffer.length then .ok none
  else do
    let byte1 ← getByte buffer start
    if byte1 < 0x80 then return some (start + 1)
    else if start + 2 > buffer.length then
      throwForEncodingError "UHC" buffer start (buffer.length - start)
    else do
      let byte2 ← getByte buffer (start + 1)
      if betweenInc byte1 0x80 0xc6 then
        if betweenInc byte2 0x41 0x5a ∨ betweenInc byte2 0x61 0x7a ∨
            betweenInc byte2 0x80 0xfe then
          return some (start + 2)
        else throwForEncodingError "UHC" buffer start 2
      else if betweenInc byte1 0xa1 0xfe then
        if ¬ betweenInc byte2 0xa1 0xfe then throwForEncodingError "UHC" buffer start 2
        else return some (start + 2)
      else throwForEncodingError "UHC" buffer start 1

def scanUtf8 : Scan :=
  if start ≥ buffer.length then .ok none
  else do
    let byte1 ← getByte buffer start
    if byte1 < 0x80 then return some (start + 1)
    else if start + 2 > buffer.length then
      throwForEncodingError "UTF8" buffer start (buffer.length - start)
    else do
      let byte2 ← getByte buffer (start + 1)
      if betweenInc byte1 0xc0 0xdf then
        if ¬ betweenInc byte2 0x80 0xbf then throwForEncodingError "UTF8" buffer start 2
        else return some (start + 2)
      else if start + 3 > buffer.length then
        throwForEncodingError "UTF8" buffer start (buffer.length - start)
      else do
        let byte3 ← getByte buffer (start + 2)
        if betweenInc byte1 0xe0 0xef then
          if betweenInc byte2 0x80 0xbf ∧ betweenInc byte3 0x80 0xbf then
            return some (start + 3)
          else throwForEncodingError "UTF8" buffer start 3
        else if start + 4 > buffer.length then
          throwForEncodingError "UTF8" buffer start (buffer.length - start)
        else if betweenInc byte1 0xf0 0xf7 then do
          let byte4 ← getByte buffer (start + 3)
          if betweenInc byte2 0x80 0xbf ∧ betweenInc byte3 0x80 0xbf ∧
              betweenInc byte4 0x80 0xbf then
            return some (start + 4)
          else throwForEncodingError "UTF8" buffer start 4
        else throwForEncodingError "UTF8" buffer start 1

/-- `get_glyph_scanner`. -/
def glyphScanner (enc : EncodingGroup) (buffer : List UInt8) (start : ℕ) : Scan :=
  match enc with
  | .MONOBYTE => scanMonobyte buffer start
  | .BIG5 => scanBig5 buffer start
  | .EUC_CN => scanEucCn buffer start
  | .EUC_JP => nextSeqForEucJplike buffer start "EUC_JP"
  | .EUC_JIS_2004 => nextSeqForEucJplike buffer start "EUC_JIS_2004"
  | .EUC_KR => scanEucKr buffer start
  | .EUC_TW => scanEucTw buffer start
  | .GB18030 => scanGb18030 buffer start
  | .GBK => scanGbk buffer start
  | .JOHAB => scanJohab buffer start
  | .MULE_INTERNAL => scanMuleInternal buffer start
  | .SJIS => nextSeqForSjislike buffer start "SJIS"
  | .SHIFT_JIS_2004 => nextSeqForSjislike buffer start "SHIFT_JIS_2004"
  | .UHC => scanUhc buffer start
  | .UTF8 => scanUtf8 buffer start

end DbCoursework.Encodings
