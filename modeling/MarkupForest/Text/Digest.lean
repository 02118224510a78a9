/-!
# Text digests

A long text can be compared by its size, its number of lines and a 64-bit
FNV-1a hash of its UTF-8 bytes.
-/

namespace MarkupForest
namespace Text

structure Digest where
  bytes : Nat
  lines : Nat
  hash : UInt64

/-- One step of the hash: mix in a byte, then multiply by the prime. -/
def hashByte (hash : UInt64) (byte : UInt8) : UInt64 :=
  (hash ^^^ byte.toUInt64) * 0x100000001b3

def digest (s : String) : Digest :=
  let bytes := s.toUTF8
  { bytes := bytes.size
    lines := bytes.foldl (fun n b => if b = 10 then n + 1 else n) 1
    hash := bytes.foldl hashByte 0xcbf29ce484222325 }

end Text
end MarkupForest
