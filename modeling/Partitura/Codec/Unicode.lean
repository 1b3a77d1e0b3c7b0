import Partitura.Codec.Fault

/-!
# The Unicode transformation formats

Bytes of a text in UTF-8, UTF-16 and UTF-32, and the strict way back. Every decoder takes the offset
of the bytes that it is given and stops at the first defect.
-/

namespace Partitura.Codec

/-- The order of the bytes of a unit. -/
inductive ByteOrder where
  | little
  | big
deriving DecidableEq, Repr

/-- A byte from a number below 256. -/
def byte (n : Nat) : UInt8 := UInt8.ofNat n

/-! ## UTF-8 -/

/-- The bytes of a character. -/
def utf8OfChar (c : Char) : List UInt8 :=
  let n := c.toNat
  if n < 0x80 then [byte n]
  else if n < 0x800 then [byte (0xC0 + n / 0x40), byte (0x80 + n % 0x40)]
  else if n < 0x10000 then
    [byte (0xE0 + n / 0x1000), byte (0x80 + n / 0x40 % 0x40), byte (0x80 + n % 0x40)]
  else
    [byte (0xF0 + n / 0x40000), byte (0x80 + n / 0x1000 % 0x40), byte (0x80 + n / 0x40 % 0x40),
      byte (0x80 + n % 0x40)]

/-- The bytes of a text. -/
def encodeUtf8 (cs : List Char) : List UInt8 := cs.flatMap utf8OfChar

/-- A byte that goes on with a character. -/
def isContinuation (b : UInt8) : Bool := 0x80 ≤ b && b < 0xC0

/-- What a byte that goes on adds to a character. -/
def low6 (b : UInt8) : Nat := b.toNat % 0x40

/-- Whether `b` may follow the first byte `a` of a longer character: it goes on with it, and the two
start neither a character with a shorter form, nor a surrogate, nor a number beyond the last
character. -/
def isSecond (a b : UInt8) : Bool :=
  isContinuation b && (a != 0xE0 || 0xA0 ≤ b) && (a != 0xED || b < 0xA0) &&
    (a != 0xF0 || 0x90 ≤ b) && (a != 0xF4 || b < 0x90)

/-- Puts a character in front of what is read after it. -/
def consChar (n : Nat) (r : Except BadBytes (List Char)) : Except BadBytes (List Char) :=
  r.map (Char.ofNat n :: ·)

/-- Reads UTF-8 at the offset `pos`. -/
def decodeUtf8From (pos : Nat) : List UInt8 → Except BadBytes (List Char)
  | [] => .ok []
  | a :: r =>
    if a < 0x80 then consChar a.toNat (decodeUtf8From (pos + 1) r)
    else if a < 0xC2 || 0xF4 < a then .error ⟨pos, [a], .startByte⟩
    else match r with
      | [] => .error ⟨pos, [a], .endOfData⟩
      | b :: r =>
        if !isSecond a b then .error ⟨pos, [a], .continuationByte⟩
        else if a < 0xE0 then consChar (a.toNat % 0x20 * 0x40 + low6 b) (decodeUtf8From (pos + 2) r)
        else match r with
          | [] => .error ⟨pos, [a, b], .endOfData⟩
          | c :: r =>
            if !isContinuation c then .error ⟨pos, [a, b], .continuationByte⟩
            else if a < 0xF0 then
              consChar (a.toNat % 0x10 * 0x1000 + low6 b * 0x40 + low6 c)
                (decodeUtf8From (pos + 3) r)
            else match r with
              | [] => .error ⟨pos, [a, b, c], .endOfData⟩
              | d :: r =>
                if !isContinuation d then .error ⟨pos, [a, b, c], .continuationByte⟩
                else consChar (a.toNat % 8 * 0x40000 + low6 b * 0x1000 + low6 c * 0x40 + low6 d)
                  (decodeUtf8From (pos + 4) r)

/-! ## UTF-16 -/

/-- The two bytes of a unit. -/
def unitBytes (order : ByteOrder) (u : Nat) : List UInt8 :=
  match order with
  | .little => [byte (u % 0x100), byte (u / 0x100)]
  | .big => [byte (u / 0x100), byte (u % 0x100)]

/-- The unit of two bytes. -/
def unitOf (order : ByteOrder) (a b : UInt8) : Nat :=
  match order with
  | .little => b.toNat * 0x100 + a.toNat
  | .big => a.toNat * 0x100 + b.toNat

/-- The units of a character: one, or a pair of surrogates. -/
def unitsOfChar (c : Char) : List Nat :=
  let n := c.toNat
  if n < 0x10000 then [n] else [0xD800 + (n - 0x10000) / 0x400, 0xDC00 + (n - 0x10000) % 0x400]

/-- The bytes of a text. -/
def encodeUtf16 (order : ByteOrder) (cs : List Char) : List UInt8 :=
  cs.flatMap fun c => (unitsOfChar c).flatMap (unitBytes order)

/-- The first half of a pair. -/
def isHigh (u : Nat) : Bool := 0xD800 ≤ u && u < 0xDC00

/-- The second half of a pair. -/
def isLow (u : Nat) : Bool := 0xDC00 ≤ u && u < 0xE000

/-- Reads UTF-16 at the offset `pos`. -/
def decodeUtf16From (order : ByteOrder) (pos : Nat) : List UInt8 → Except BadBytes (List Char)
  | [] => .ok []
  | [a] => .error ⟨pos, [a], .truncated⟩
  | a :: b :: r =>
    let u := unitOf order a b
    if isHigh u then
      match r with
      | c :: d :: r =>
        let v := unitOf order c d
        if isLow v then
          consChar (0x10000 + (u - 0xD800) * 0x400 + (v - 0xDC00))
            (decodeUtf16From order (pos + 4) r)
        else .error ⟨pos, [a, b], .surrogate⟩
      | r => .error ⟨pos, a :: b :: r, .endOfData⟩
    else if isLow u then .error ⟨pos, [a, b], .loneSurrogate⟩
    else consChar u (decodeUtf16From order (pos + 2) r)

/-! ## UTF-32 -/

/-- The four bytes of a character. -/
def utf32OfChar (order : ByteOrder) (c : Char) : List UInt8 :=
  let n := c.toNat
  match order with
  | .little => [byte (n % 0x100), byte (n / 0x100 % 0x100), byte (n / 0x10000), 0]
  | .big => [0, byte (n / 0x10000), byte (n / 0x100 % 0x100), byte (n % 0x100)]

/-- The bytes of a text. -/
def encodeUtf32 (order : ByteOrder) (cs : List Char) : List UInt8 := cs.flatMap (utf32OfChar order)

/-- The number of four bytes. -/
def codeOf4 (order : ByteOrder) (a b c d : UInt8) : Nat :=
  match order with
  | .little => ((d.toNat * 0x100 + c.toNat) * 0x100 + b.toNat) * 0x100 + a.toNat
  | .big => ((a.toNat * 0x100 + b.toNat) * 0x100 + c.toNat) * 0x100 + d.toNat

/-- Reads UTF-32 at the offset `pos`. -/
def decodeUtf32From (order : ByteOrder) (pos : Nat) : List UInt8 → Except BadBytes (List Char)
  | [] => .ok []
  | a :: b :: c :: d :: r =>
    let n := codeOf4 order a b c d
    if isHigh n || isLow n then .error ⟨pos, [a, b, c, d], .surrogateCode⟩
    else if 0x110000 ≤ n then .error ⟨pos, [a, b, c, d], .codeRange⟩
    else consChar n (decodeUtf32From order (pos + 4) r)
  | r => .error ⟨pos, r, .truncated⟩

end Partitura.Codec
