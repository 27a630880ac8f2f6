import Go2Cbt.Lib.LittleEndian

/-!
# Client — partitions, volumes and snapshots

The part of the disk layout that a backup reads, `VolumeMapper::Map`, and what
`BackupEngine` does with the VSS writer: it adds every mapped filesystem volume to a snapshot
set and reads from the first snapshot there is, or else from the physical disk.
-/

namespace Go2Cbt.Client

/-- `PartitionContent`. -/
inductive PartitionContent where
  | unknown
  | filesystemNTFS
  | filesystemFAT32
  | filesystemExFAT
  | filesystemReFS
  | rawPartition
  | reserved
  deriving DecidableEq, Repr

/-- The contents that are backed up through VSS. -/
def PartitionContent.isFilesystem : PartitionContent → Bool
  | .filesystemNTFS | .filesystemFAT32 | .filesystemExFAT | .filesystemReFS => true
  | _ => false

/-- `PartitionInfo`, its place and its content. -/
structure PartitionInfo where
  offset : UInt64
  size : UInt64
  content : PartitionContent
  deriving DecidableEq, Repr

/-- `DiskLayout`, the fields a backup reads. -/
structure DiskLayout where
  deviceNumber : UInt32
  size : UInt64
  partitions : List PartitionInfo
  deriving DecidableEq, Repr

/-- A volume that `VolumeMapper` enumerated. -/
structure VolumeInfo where
  diskNumber : UInt32
  diskOffset : UInt64
  volumeGuid : String
  deriving DecidableEq, Repr

/-- `MappedPartition`. -/
structure MappedPartition where
  partition : PartitionInfo
  volumeGuid : String
  deriving DecidableEq, Repr

/-- `VolumeMapper::Map`, its third step: match the volumes of the disk with the partitions that
start at the same offset. -/
def mapVolumes (volumes : List VolumeInfo) (layout : DiskLayout) : List MappedPartition :=
  volumes.filterMap fun vol =>
    if vol.diskNumber ≠ layout.deviceNumber then none
    else
      (layout.partitions.find? fun part => vol.diskOffset = part.offset).map fun part =>
        { partition := part, volumeGuid := vol.volumeGuid }

/-- The answers of `VssManager` in one run. -/
structure Vss where
  initialized : Bool
  startSnapshotSet : Bool
  addVolumeToSnapshotSet : String → Bool
  doSnapshotSet : Bool
  getSnapshotDevicePath : String → Option String

/-- Whether a mapped partition is added to the snapshot set. -/
def Vss.adds (vss : Vss) (mp : MappedPartition) : Bool :=
  mp.partition.content.isFilesystem && vss.addVolumeToSnapshotSet mp.volumeGuid

/-- Whether adding a mapped partition to the snapshot set fails. -/
def Vss.skips (vss : Vss) (mp : MappedPartition) : Bool :=
  mp.partition.content.isFilesystem && !vss.addVolumeToSnapshotSet mp.volumeGuid

/-- The snapshot steps of a backup: whether it goes on after them. -/
def Vss.takeSnapshots (vss : Vss) (mapped : List MappedPartition) : Bool :=
  let fsAdded := mapped.countP vss.adds
  let fsSkipped := mapped.countP vss.skips
  vss.initialized && vss.startSnapshotSet && !(fsSkipped > 0 && fsAdded = 0) &&
    (fsAdded = 0 || vss.doSnapshotSet)

/-- What a backup reads its blocks from. -/
inductive DataSource where
  | snapshot (path : String)
  | physicalDrive (devNo : UInt32)
  deriving DecidableEq, Repr

/-- The choice of the data source: the first mapped partition with a snapshot path. -/
def dataSource (vss : Vss) (mapped : List MappedPartition) (devNo : UInt32) : DataSource :=
  match mapped.findSome? fun mp => (vss.getSnapshotDevicePath mp.volumeGuid).filter (· ≠ "") with
  | some path => .snapshot path
  | none => .physicalDrive devNo

end Go2Cbt.Client
