import Go2Cbt.Lib.LittleEndian

/-!
# Blocks and hashes

What the driver, the client and the server agree on: blocks of 1 MB and hashes of 32 bytes.
SHA-256 itself is a system library on either side, so it is a parameter of what uses it.
-/

namespace Go2Cbt

/-- `BLOCK_SIZE`, the bytes of a block. -/
def blockSize : Nat := 1024 * 1024

theorem blockSize_eq : blockSize = 2 ^ 20 := rfl

theorem blockSize_pos : 0 < blockSize := by decide

theorem blockSize_lit : blockSize = 1048576 := rfl

theorem toNat_ofNat_blockSize : (UInt64.ofNat blockSize).toNat = blockSize := rfl

/-- `SHA256_SIZE` bytes. -/
structure Hash where
  bytes : Bytes
  length_eq : bytes.length = 32
  deriving DecidableEq

/-- A zeroed hash. -/
def Hash.zero : Hash := ⟨List.replicate 32 0, List.length_replicate⟩

end Go2Cbt
