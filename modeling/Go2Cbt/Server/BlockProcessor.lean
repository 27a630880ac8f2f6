import Go2Cbt.Lib.Image
import Go2Cbt.Lib.SortedMap
import Go2Cbt.Protocol

/-!
# Server — backing files and block processing

`DiskMap` and `BlockProcessor::Process`: look up the backing file, check the range, inflate,
check the hash, write.  OpenSSL, zlib and the file system are parameters; `pwrite` takes the
number of the call, so that any call can fail or fall short.
-/

namespace Go2Cbt.Server

open Go2Cbt.Protocol

/-- `DiskMap::BackingFile`. -/
structure BackingFile where
  fd : Nat
  sizeBytes : UInt64
  path : String
  deriving DecidableEq, Repr

/-- `DiskMap`, keyed by device number. -/
abbrev DiskMap := SortedMap Nat BackingFile

/-- `DiskMap::Get`. -/
def DiskMap.get (map : DiskMap) (devno : UInt32) : Option BackingFile := map.find? devno.toNat

/-- What `BlockProcessor` calls.  `fileOf` is the file a descriptor has open; `uncompress2` gets
the size of the output buffer; `pwrite` says how many bytes the call wrote. -/
structure Libs where
  diskMap : DiskMap
  fileOf : Nat → Nat
  sha256 : Bytes → Hash
  uncompress2 : Nat → Bytes → Option Bytes
  pwrite : Nat → Nat → Option Nat

/-- The contents and the sizes of the files, and the descriptors of the `pwrite` calls so far. -/
structure Files where
  image : Nat → Image
  size : Nat → Nat
  calls : List Nat

/-- The size of a file after `n` bytes were written at `offset`. -/
def grownSize (size offset n : Nat) : Nat := if n = 0 then size else max size (offset + n)

/-- `pwrite` of `data` at `offset`.  A negative `off_t` is refused. -/
def pwrite (libs : Libs) (fd : Nat) (data : Bytes) (offset : UInt64) (files : Files) :
    Option Nat × Files :=
  let called := { files with calls := files.calls ++ [fd] }
  if offset.toNat ≥ 2 ^ 63 then (none, called)
  else
    match libs.pwrite files.calls.length data.length with
    | none => (none, called)
    | some n =>
        (some (min n data.length),
          { called with
            image := Function.update files.image (libs.fileOf fd)
              ((files.image (libs.fileOf fd)).write offset.toNat (data.take n))
            size := Function.update files.size (libs.fileOf fd)
              (grownSize (files.size (libs.fileOf fd)) offset.toNat (min n data.length)) })

/-- The size of `rawBuf_`. -/
def rawBufSize : Nat := blockSize + 64

/-- `BlockProcessor::Process`: the status and the acknowledgement. -/
def process (libs : Libs) (devno : UInt32) (bh : BlockHeader) (compressedData : Bytes)
    (files : Files) : AckStatus × AckBody × Files :=
  let answer (status : AckStatus) (files : Files) : AckStatus × AckBody × Files :=
    (status,
      { blockIndex := bh.blockIndex, status := status.code, devNo := devno, hash := bh.hash },
      files)
  match libs.diskMap.get devno with
  | none => answer .invalidDev files
  | some bf =>
      if bh.dataSize = 0 ∨ bh.dataSize.toNat > blockSize then answer .outOfRange files
      else
        let offset := bh.blockIndex * UInt64.ofNat blockSize
        if offset + bh.dataSize.toUInt64 > bf.sizeBytes then answer .outOfRange files
        else
          match libs.uncompress2 rawBufSize compressedData with
          | none => answer .decompressError files
          | some raw =>
              if raw.length ≠ bh.dataSize.toNat then answer .decompressError files
              else if libs.sha256 raw ≠ bh.hash then answer .hashMismatch files
              else
                let w := pwrite libs bf.fd raw offset files
                if w.1 ≠ some raw.length then answer .writeError w.2 else answer .ok w.2

end Go2Cbt.Server
