/-! The hash keccak-256: the sponge over the permutation of 25 lanes of 64 bits with blocks of
136 bytes and the padding bits `10…01`. -/
namespace ContractInterface.Keccak

/-- Lane `(x, y)` stands at `x + 5 · y`. -/
abbrev State := Vector UInt64 25

def lane (s : State) (x y : Nat) : UInt64 :=
  s.get ⟨x % 5 + 5 * (y % 5), by omega⟩

/-- The state whose lane `(x, y)` is `f x y`. -/
def State.ofLanes (f : Nat → Nat → UInt64) : State := .ofFn fun i => f (i.val % 5) (i.val / 5)

def rotate (w : UInt64) (n : Nat) : UInt64 :=
  if n = 0 then w else (w <<< UInt64.ofNat n) ||| (w >>> UInt64.ofNat (64 - n))

/-- How far each lane is rotated, row by row. -/
def offsets : Vector Nat 25 :=
  #v[0, 1, 62, 28, 27, 36, 44, 6, 55, 20, 3, 10, 43, 25, 39, 41, 45, 15, 21, 8, 18, 2, 61, 56, 14]

def roundConstants : List UInt64 :=
  [0x0000000000000001, 0x0000000000008082, 0x800000000000808A, 0x8000000080008000,
   0x000000000000808B, 0x0000000080000001, 0x8000000080008081, 0x8000000000008009,
   0x000000000000008A, 0x0000000000000088, 0x0000000080008009, 0x000000008000000A,
   0x000000008000808B, 0x800000000000008B, 0x8000000000008089, 0x8000000000008003,
   0x8000000000008002, 0x8000000000000080, 0x000000000000800A, 0x800000008000000A,
   0x8000000080008081, 0x8000000000008080, 0x0000000080000001, 0x8000000080008008]

/-- Add to each lane the parities of two neighbouring columns. -/
def theta (s : State) : State :=
  let column : Vector UInt64 5 := .ofFn fun x =>
    lane s x 0 ^^^ lane s x 1 ^^^ lane s x 2 ^^^ lane s x 3 ^^^ lane s x 4
  let parity (x : Nat) : UInt64 := column.get ⟨x % 5, by omega⟩
  .ofLanes fun x y => lane s x y ^^^ parity (x + 4) ^^^ rotate (parity (x + 1)) 1

/-- Rotate the lanes and move each to its new place. -/
def rhoPi (s : State) : State :=
  .ofLanes fun x y =>
    let source := (x + 3 * y) % 5
    rotate (lane s source x) (offsets.get ⟨source + 5 * (x % 5), by omega⟩)

def chi (s : State) : State :=
  .ofLanes fun x y => lane s x y ^^^ (~~~ lane s (x + 1) y &&& lane s (x + 2) y)

def round (s : State) (constant : UInt64) : State :=
  let s := chi (rhoPi (theta s))
  s.set 0 (s[0] ^^^ constant)

def permute (s : State) : State := roundConstants.foldl round s

/-- Bytes in a block. -/
def rate : Nat := 136

/-- The number that bytes write, least significant first. -/
def littleEndian (bytes : List UInt8) : UInt64 :=
  bytes.foldr (fun b w => (w <<< 8) ||| b.toUInt64) 0

/-- Add a block to the first lanes and permute. -/
def absorbBlock (s : State) (block : List UInt8) : State :=
  permute <| .ofFn fun i => s[i] ^^^ littleEndian ((block.drop (8 * i.val)).take 8)

/-- Absorb the given number of blocks. -/
def absorb : Nat → State → List UInt8 → State
  | 0, s, _ => s
  | n + 1, s, bytes => absorb n (absorbBlock s (bytes.take rate)) (bytes.drop rate)

/-- A message padded to whole blocks, by at least one byte. -/
def pad (message : List UInt8) : List UInt8 :=
  let gap := rate - message.length % rate
  message ++ if gap = 1 then [0x81] else 0x01 :: List.replicate (gap - 2) 0 ++ [0x80]

/-- The bytes of a lane, least significant first. -/
def laneBytes (w : UInt64) : List UInt8 :=
  (List.range 8).map fun i => (w >>> UInt64.ofNat (8 * i)).toUInt8

def hash (message : List UInt8) : List UInt8 :=
  let padded := pad message
  let s := absorb (padded.length / rate) (Vector.replicate 25 0) padded
  laneBytes s[0] ++ laneBytes s[1] ++ laneBytes s[2] ++ laneBytes s[3]

/-- The hash of the UTF-8 form of a text. -/
def hashText (s : String) : List UInt8 := hash s.toUTF8.data.toList

end ContractInterface.Keccak
