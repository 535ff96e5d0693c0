namespace TraitMock.Text

/-- Where bytes stop being UTF-8. -/
inductive Utf8Error where
  /-- The `length` bytes from `index` on begin no character. -/
  | invalid (index length : Nat)
  /-- The bytes end within the character that begins at `index`. -/
  | incomplete (index : Nat)
  deriving DecidableEq, Repr

def Utf8Error.message : Utf8Error → String
  | .invalid index length =>
    "invalid utf-8 sequence of " ++ toString length ++ " bytes from index " ++ toString index
  | .incomplete index => "incomplete utf-8 byte sequence from index " ++ toString index

/-- A byte that continues a character. -/
def isContinuation (b : UInt8) : Bool := 0x80 ≤ b && b ≤ 0xBF

/-- Whether `b` may be the second byte of a character of three bytes that begins with `a`. -/
def secondOfThree (a b : UInt8) : Bool :=
  if a = 0xE0 then 0xA0 ≤ b && b ≤ 0xBF
  else if a = 0xED then 0x80 ≤ b && b ≤ 0x9F
  else isContinuation b

/-- Whether `b` may be the second byte of a character of four bytes that begins with `a`. -/
def secondOfFour (a b : UInt8) : Bool :=
  if a = 0xF0 then 0x90 ≤ b && b ≤ 0xBF
  else if a = 0xF4 then 0x80 ≤ b && b ≤ 0x8F
  else isContinuation b

/-- The payload of a continuation byte. -/
def low6 (b : UInt8) : Nat := b.toNat % 64

/-- The characters that bytes hold; `index` bytes went before. -/
def charsOfBytes (index : Nat) : List UInt8 → Except Utf8Error (List Char)
  | [] => .ok []
  | a :: rest =>
    if a < 0x80 then (Char.ofNat a.toNat :: ·) <$> charsOfBytes (index + 1) rest
    else if 0xC2 ≤ a && a ≤ 0xDF then
      match rest with
      | [] => .error (.incomplete index)
      | b :: rest =>
        if !isContinuation b then .error (.invalid index 1)
        else (Char.ofNat (a.toNat % 32 * 64 + low6 b) :: ·) <$> charsOfBytes (index + 2) rest
    else if 0xE0 ≤ a && a ≤ 0xEF then
      match rest with
      | [] => .error (.incomplete index)
      | b :: rest =>
        if !secondOfThree a b then .error (.invalid index 1)
        else match rest with
          | [] => .error (.incomplete index)
          | c :: rest =>
            if !isContinuation c then .error (.invalid index 2)
            else
              (Char.ofNat ((a.toNat % 16 * 64 + low6 b) * 64 + low6 c) :: ·) <$> charsOfBytes (index + 3) rest
    else if 0xF0 ≤ a && a ≤ 0xF4 then
      match rest with
      | [] => .error (.incomplete index)
      | b :: rest =>
        if !secondOfFour a b then .error (.invalid index 1)
        else match rest with
          | [] => .error (.incomplete index)
          | c :: rest =>
            if !isContinuation c then .error (.invalid index 2)
            else match rest with
              | [] => .error (.incomplete index)
              | d :: rest =>
                if !isContinuation d then .error (.invalid index 3)
                else
                  (Char.ofNat (((a.toNat % 8 * 64 + low6 b) * 64 + low6 c) * 64 + low6 d) :: ·) <$>
                    charsOfBytes (index + 4) rest
    else .error (.invalid index 1)

/-- The text that bytes hold. -/
def decodeUtf8 (bytes : List UInt8) : Except Utf8Error String := String.ofList <$> charsOfBytes 0 bytes

/-- The bytes that hold a text. -/
def encodeUtf8 (s : String) : List UInt8 := s.toUTF8.toList

end TraitMock.Text
