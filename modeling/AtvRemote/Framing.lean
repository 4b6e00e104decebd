import AtvRemote.SystemCalls

namespace AtvRemote.Framing

open Programs Errors Messages SystemCalls

structure Codec (M : Type) where
  encode : M → Bytes
  decode : Bytes → Except String M

variable {M : Type}

def maxFrame : UInt64 := 1024 * 1024

/-- The loop that pushes the length. Ten rounds are enough for 64 bits. -/
def pushLen : Nat → UInt64 → Bytes
  | 0, _ => []
  | rounds + 1, len =>
      let byte := (len &&& 0x7f).toUInt8
      let len := len >>> 7
      if len = 0 then [byte] else (byte ||| 0x80) :: pushLen rounds len

def frame (codec : Codec M) (msg : M) : Bytes :=
  let body := codec.encode msg
  pushLen 10 (UInt64.ofNat body.length) ++ body

def writeMessage (codec : Codec M) (msg : M) : Program ByteWire IoError Unit :=
  .call (.writeAll (frame codec msg)) fun
    | .ok _ => pure ()
    | .error e => .fail e

def unexpectedEof : IoError := ⟨.unexpectedEof, "failed to fill whole buffer"⟩

/-- Fill a buffer of `n` bytes. Every read but the last of a stream hands over
at least one byte, so there are at most `n` of them. -/
def readExact :
    (rounds n : Nat) → n ≤ rounds → Program ByteWire IoError {bytes : Bytes // bytes.length = n}
  | 0, _, h => pure ⟨[], by simp_all⟩
  | rounds + 1, n, h =>
      if hn : n = 0 then pure ⟨[], by simp [hn]⟩
      else .call (.read n) fun
        | .error e => .fail e
        | .ok bytes =>
            if he : bytes.1 = [] then .fail unexpectedEof
            else do
              have := List.length_pos_iff.mpr he
              have := bytes.2
              let rest ← readExact rounds (n - bytes.1.length) (by omega)
              pure ⟨bytes.1 ++ rest.1, by rw [List.length_append, rest.2]; omega⟩

def readByte : Program ByteWire IoError UInt8 := do
  let byte ← readExact 1 1 (Nat.le_refl 1)
  pure (byte.1.head (List.ne_nil_of_length_eq_add_one byte.2))

def varintTooLong : IoError := ⟨.invalidData, "varint too long"⟩

def frameExceeds : IoError := ⟨.invalidData, "frame exceeds 1 MiB"⟩

/-- The loop over the shifts that reads the length; `rounds` counts those left
of five. -/
def readLen : (rounds shift : Nat) → UInt64 → Program ByteWire IoError UInt64
  | 0, _, len => pure len
  | rounds + 1, shift, len => do
      let byte ← readByte
      let len := len ||| (byte &&& 0x7f).toUInt64 <<< UInt64.ofNat (7 * shift)
      if byte &&& 0x80 = 0 then pure len
      else if shift = 4 then .fail varintTooLong
      else readLen rounds (shift + 1) len

def readMessage (codec : Codec M) : Program ByteWire IoError M := do
  let len ← readLen 5 0 0
  if len > maxFrame then .fail frameExceeds
  else do
    let body ← readExact len.toNat len.toNat (Nat.le_refl _)
    match codec.decode body.1 with
    | .ok msg => pure msg
    | .error e => .fail ⟨.invalidData, e⟩

/-- The operations on one connection, with the errors as their answers. -/
def onConn {α : Type} (conn : Conn) :
    Program ByteWire IoError α → Command ByteWire (Except IoError α)
  | .ret a => pure (.ok a)
  | .fail e => pure (.error e)
  | .call o k => .call (.wire conn o) fun x => onConn conn (k x)

/-- An operation on messages as it is carried out on bytes. -/
def overBytes (codec : Codec M) :
    (o : SystemOp (MessageOp M)) → Command ByteWire (SystemOp.Answer MessageOp.Answer o)
  | .wire conn .recv => onConn conn (readMessage codec)
  | .wire conn (.send msg) => onConn conn (writeMessage codec msg)
  | .host o => ask o

end AtvRemote.Framing
