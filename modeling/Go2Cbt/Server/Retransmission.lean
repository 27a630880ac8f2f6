import Go2Cbt.Server.Writes
import Mathlib.Data.List.Pairwise

/-!
# Server — blocks out of order and blocks sent again

When every `pwrite` is whole and no two devices share a file, a request does the same to the
images whatever came before it: it leaves them, or it applies one patch inside its own block
(`process_eq`, `rewrite_cases`).  Patches of different blocks commute and a patch may be applied
again, so that a client may retransmit (`process_order_independent`).
-/

namespace Go2Cbt.Server

open Go2Cbt.Protocol

/-- The block a request is for. -/
def BlockRequest.target (r : BlockRequest) : UInt32 × UInt64 := (r.devno, r.header.blockIndex)

/-- A file system that writes everything it is given, and a file of its own for each device. -/
structure Reliable (libs : Libs) : Prop where
  whole : ∀ call len, libs.pwrite call len = some len
  separate : ∀ devno devno' bf bf', libs.diskMap.get devno = some bf →
    libs.diskMap.get devno' = some bf' → libs.fileOf bf.fd = libs.fileOf bf'.fd → devno = devno'

/-- Files with these contents. -/
def Files.holding (images : Nat → Image) : Files :=
  { image := images, size := fun _ => 0, calls := [] }

/-- The status of a request when every write is whole. -/
def BlockRequest.status (libs : Libs) (r : BlockRequest) : AckStatus :=
  (processRequest libs r (.holding fun _ _ => 0)).1

/-- What a request makes of the images. -/
def BlockRequest.rewrite (libs : Libs) (r : BlockRequest) (images : Nat → Image) : Nat → Image :=
  (processRequest libs r (.holding images)).2.2.image

/-- The requests in order: each with its status, and the files after them. -/
def processAll (libs : Libs) : List BlockRequest → Files → List (BlockRequest × AckStatus) × Files
  | [], files => ([], files)
  | r :: rs, files =>
      let done := processRequest libs r files
      let rest := processAll libs rs done.2.2
      ((r, done.1) :: rest.1, rest.2)

section Reliable

variable {libs : Libs} (hlibs : Reliable libs)
include hlibs

theorem wrote_eq (r : BlockRequest) (raw : Bytes) (files files' : Files) :
    r.wrote libs raw files = r.wrote libs raw files' := by
  rw [BlockRequest.wrote, BlockRequest.wrote, hlibs.whole, hlibs.whole]

/-- **A request does the same whatever came before.** -/
theorem process_eq (r : BlockRequest) (files : Files) :
    (processRequest libs r files).1 = r.status libs ∧
      (processRequest libs r files).2.2.image = r.rewrite libs files.image := by
  rw [BlockRequest.status, BlockRequest.rewrite]
  cases hcheck : r.check libs with
  | error status =>
      obtain ⟨-, hstatus, hfiles⟩ := process_of_refused hcheck files
      obtain ⟨-, hstatus', -⟩ := process_of_refused hcheck (.holding fun _ _ => 0)
      obtain ⟨-, -, hfiles'⟩ := process_of_refused hcheck (.holding files.image)
      rw [hstatus, hstatus', hfiles, hfiles']
      exact ⟨rfl, rfl⟩
  | ok found =>
      have h := check_eq_ok_iff.mp hcheck
      cases hwrote : r.wrote libs found.2 files with
      | none =>
          obtain ⟨hstatus, himage, -⟩ := process_of_write_failed h hwrote
          rw [wrote_eq hlibs r found.2 files (.holding fun _ _ => 0)] at hwrote
          have hstatus' := (process_of_write_failed h hwrote).1
          rw [wrote_eq hlibs r found.2 _ (.holding files.image)] at hwrote
          have himage' := (process_of_write_failed h hwrote).2.1
          exact ⟨hstatus.trans hstatus'.symm, himage.trans himage'.symm⟩
      | some n =>
          obtain ⟨hstatus, himage, -⟩ := process_of_write h hwrote
          rw [wrote_eq hlibs r found.2 files (.holding fun _ _ => 0)] at hwrote
          have hstatus' := (process_of_write h hwrote).1
          rw [wrote_eq hlibs r found.2 _ (.holding files.image)] at hwrote
          have himage' := (process_of_write h hwrote).2.1
          exact ⟨hstatus.trans hstatus'.symm, himage.trans himage'.symm⟩

omit hlibs in
/-- A patch inside the block of a request. -/
structure BlockRequest.Covers (r : BlockRequest) (libs : Libs) (p : Patch Nat) : Prop where
  device : ∃ bf, libs.diskMap.get r.devno = some bf ∧ p.image = libs.fileOf bf.fd
  off_eq : p.off = r.address
  length_le : p.data.length ≤ blockSize

/-- A request leaves the images, or patches its own block. -/
theorem rewrite_cases {r : BlockRequest} (hidx : r.header.blockIndex.toNat < 2 ^ 44) :
    (∀ images, r.rewrite libs images = images) ∨
      ∃ p, r.Covers libs p ∧ ∀ images, r.rewrite libs images = p.apply images := by
  cases hcheck : r.check libs with
  | error status =>
      exact .inl fun images => congrArg Files.image (process_of_refused hcheck _).2.2
  | ok found =>
      have h := check_eq_ok_iff.mp hcheck
      cases hwrote : r.wrote libs found.2 (.holding fun _ _ => 0) with
      | none =>
          refine .inl fun images => ?_
          rw [wrote_eq hlibs r found.2 _ (.holding images)] at hwrote
          exact (process_of_write_failed h hwrote).2.1
      | some n =>
          refine .inr ⟨r.patch libs found.1 (found.2.take n), ⟨⟨found.1, h.device, rfl⟩, ?_, ?_⟩,
            fun images => ?_⟩
          · exact offset_toNat hidx
          · rw [BlockRequest.patch, List.length_take, h.length]
            exact (min_le_right _ _).trans h.size.2
          · rw [wrote_eq hlibs r found.2 _ (.holding images)] at hwrote
            exact (process_of_write h hwrote).2.1

/-- Patches inside different blocks touch different bytes. -/
theorem disjoint_of_covers {r q : BlockRequest} {p p' : Patch Nat} (hp : r.Covers libs p)
    (hp' : q.Covers libs p') (hne : r.target ≠ q.target) : p.Disjoint p' := by
  intro hfile
  obtain ⟨bf, hdevice, himage⟩ := hp.device
  obtain ⟨bf', hdevice', himage'⟩ := hp'.device
  have hdevno : r.devno = q.devno :=
    hlibs.separate _ _ _ _ hdevice hdevice' (himage.symm.trans (hfile.trans himage'))
  have hidx : r.header.blockIndex.toNat ≠ q.header.blockIndex.toNat := fun heq =>
    hne (Prod.ext hdevno (UInt64.toNat_inj.mp heq))
  have hlen := hp.length_le
  have hlen' := hp'.length_le
  rw [hp.off_eq, hp'.off_eq, BlockRequest.address, BlockRequest.address]
  rw [blockSize_eq] at hlen hlen' ⊢
  omega

/-- **Requests for different blocks commute.** -/
theorem rewrite_comm {r q : BlockRequest} (hr : r.header.blockIndex.toNat < 2 ^ 44)
    (hq : q.header.blockIndex.toNat < 2 ^ 44) (hne : r.target ≠ q.target)
    (images : Nat → Image) :
    q.rewrite libs (r.rewrite libs images) = r.rewrite libs (q.rewrite libs images) := by
  rcases rewrite_cases hlibs hr with hr | ⟨p, hp, hr⟩
  · rw [hr, hr]
  · rcases rewrite_cases hlibs hq with hq | ⟨p', hp', hq⟩
    · rw [hq, hq]
    · rw [hr, hr, hq, hq]
      exact (disjoint_of_covers hlibs hp hp' hne).apply_comm images

/-- A request sent twice has the effect of one. -/
theorem rewrite_idem {r : BlockRequest} (hidx : r.header.blockIndex.toNat < 2 ^ 44)
    (images : Nat → Image) : r.rewrite libs (r.rewrite libs images) = r.rewrite libs images := by
  rcases rewrite_cases hlibs hidx with hr | ⟨p, -, hr⟩
  · rw [hr]
  · rw [hr, hr]
    exact Patch.apply_eq_self_iff.mpr (p.present_apply images)

/-! ### Lists of requests -/

/-- **A list of requests rewrites the images one by one.** -/
theorem processAll_eq (rs : List BlockRequest) (files : Files) :
    (processAll libs rs files).1 = rs.map (fun r => (r, r.status libs)) ∧
      (processAll libs rs files).2.image
        = rs.foldl (fun images r => r.rewrite libs images) files.image := by
  induction rs generalizing files with
  | nil => exact ⟨rfl, rfl⟩
  | cons r rs ih =>
      obtain ⟨hstatus, himage⟩ := process_eq hlibs r files
      obtain ⟨hreplies, himages⟩ := ih (processRequest libs r files).2.2
      rw [processAll]
      dsimp only
      rw [hreplies, himages, himage, hstatus]
      exact ⟨rfl, rfl⟩

/-- A request that has been processed changes nothing, whatever else came in between. -/
theorem rewrite_foldl_rewrite {r : BlockRequest} {rs : List BlockRequest}
    (hr : r.header.blockIndex.toNat < 2 ^ 44)
    (hrs : ∀ q ∈ rs, q.header.blockIndex.toNat < 2 ^ 44)
    (hothers : ∀ q ∈ rs, q = r ∨ q.target ≠ r.target) (images : Nat → Image)
    (hdone : r.rewrite libs images = images) :
    r.rewrite libs (rs.foldl (fun images q => q.rewrite libs images) images)
      = rs.foldl (fun images q => q.rewrite libs images) images := by
  induction rs generalizing images with
  | nil => exact hdone
  | cons q rs ih =>
      refine ih (fun q' h => hrs q' (.tail q h)) (fun q' h => hothers q' (.tail q h)) _ ?_
      rcases hothers q List.mem_cons_self with rfl | hne
      · exact rewrite_idem hlibs hr images
      · rw [rewrite_comm hlibs (hrs q List.mem_cons_self) hr hne, hdone]

omit hlibs in
/-- In a list of requests for pairwise different blocks, two are the same or for different
blocks. -/
theorem target_ne_of_mem {rs : List BlockRequest}
    (hrs : rs.Pairwise fun r q => r.target ≠ q.target) {r q : BlockRequest} (hr : r ∈ rs)
    (hq : q ∈ rs) (hne : r ≠ q) : r.target ≠ q.target :=
  have : Std.Symm fun r q : BlockRequest => r.target ≠ q.target := ⟨fun _ _ h => h.symm⟩
  hrs.forall hr hq hne

/-- **A permutation of requests for different blocks gives the same images and statuses.** -/
theorem processAll_perm {rs rs' : List BlockRequest} (hperm : rs.Perm rs')
    (hidx : ∀ r ∈ rs, r.header.blockIndex.toNat < 2 ^ 44)
    (hrs : rs.Pairwise fun r q => r.target ≠ q.target) (files : Files) :
    (processAll libs rs files).2.image = (processAll libs rs' files).2.image ∧
      (processAll libs rs files).1.Perm (processAll libs rs' files).1 := by
  obtain ⟨hreplies, himages⟩ := processAll_eq hlibs rs files
  obtain ⟨hreplies', himages'⟩ := processAll_eq hlibs rs' files
  rw [hreplies, hreplies', himages, himages']
  refine ⟨hperm.foldl_eq' (fun r hr q hq images => ?_) _, hperm.map _⟩
  by_cases heq : r = q
  · rw [heq]
  · exact rewrite_comm hlibs (hidx r hr) (hidx q hq) (target_ne_of_mem hrs hr hq heq) images

/-- Requests processed again, after requests for other blocks and any number of repetitions,
change nothing and get the status of the first time. -/
theorem processRequest_again {r : BlockRequest} {rs : List BlockRequest}
    (hr : r.header.blockIndex.toNat < 2 ^ 44)
    (hrs : ∀ q ∈ rs, q.header.blockIndex.toNat < 2 ^ 44)
    (hothers : ∀ q ∈ rs, q = r ∨ q.target ≠ r.target) (files : Files) :
    let first := processRequest libs r files
    let later := (processAll libs rs first.2.2).2
    (processRequest libs r later).2.2.image = later.image ∧
      (processRequest libs r later).1 = first.1 := by
  intro first later
  obtain ⟨hstatus, himage⟩ := process_eq hlibs r files
  obtain ⟨hstatus', himage'⟩ := process_eq hlibs r later
  have hlater := (processAll_eq hlibs rs first.2.2).2
  rw [himage] at hlater
  refine ⟨?_, hstatus'.trans hstatus.symm⟩
  rw [himage', hlater]
  exact rewrite_foldl_rewrite hlibs hr hrs hothers _ (rewrite_idem hlibs hr files.image)

end Reliable

/-- **Order and repetition make no difference**: two requests for different blocks commute, with
the same statuses; so does any list of requests for pairwise different blocks; and a request that
was processed before leaves every image as it is and gets the status of the first time, whatever
was repeated or processed for other blocks in between. -/
theorem process_order_independent (libs : Libs) (hlibs : Reliable libs) (files : Files) :
    (∀ r q : BlockRequest, r.header.blockIndex.toNat < 2 ^ 44 →
      q.header.blockIndex.toNat < 2 ^ 44 → r.target ≠ q.target →
      let rq := processRequest libs q (processRequest libs r files).2.2
      let qr := processRequest libs r (processRequest libs q files).2.2
      rq.2.2.image = qr.2.2.image ∧ (processRequest libs r files).1 = qr.1 ∧
        rq.1 = (processRequest libs q files).1) ∧
    (∀ rs rs' : List BlockRequest, rs.Perm rs' →
      (∀ r ∈ rs, r.header.blockIndex.toNat < 2 ^ 44) →
      rs.Pairwise (fun r q => r.target ≠ q.target) →
      (processAll libs rs files).2.image = (processAll libs rs' files).2.image ∧
        (processAll libs rs files).1.Perm (processAll libs rs' files).1) ∧
    ∀ (r : BlockRequest) (rs : List BlockRequest), r.header.blockIndex.toNat < 2 ^ 44 →
      (∀ q ∈ rs, q.header.blockIndex.toNat < 2 ^ 44) →
      (∀ q ∈ rs, q = r ∨ q.target ≠ r.target) →
      let first := processRequest libs r files
      let later := (processAll libs rs first.2.2).2
      (processRequest libs r later).2.2.image = later.image ∧
        (processRequest libs r later).1 = first.1 := by
  refine ⟨fun r q hr hq hne => ?_, fun rs rs' hperm hidx hrs => ?_,
    fun r rs hr hrs hothers => ?_⟩
  · obtain ⟨hstatus_r, himage_r⟩ := process_eq hlibs r files
    obtain ⟨hstatus_q, himage_q⟩ := process_eq hlibs q files
    obtain ⟨hstatus_rq, himage_rq⟩ := process_eq hlibs q (processRequest libs r files).2.2
    obtain ⟨hstatus_qr, himage_qr⟩ := process_eq hlibs r (processRequest libs q files).2.2
    refine ⟨?_, hstatus_r.trans hstatus_qr.symm, hstatus_rq.trans hstatus_q.symm⟩
    rw [himage_rq, himage_qr, himage_r, himage_q]
    exact rewrite_comm hlibs hr hq hne files.image
  · exact processAll_perm hlibs hperm hidx hrs files
  · exact processRequest_again hlibs hr hrs hothers files

theorem process_order_independent_twoDisks :
    (processAll (twoDisks fun _ len => some len) [oneTwoBlock 0 0, oneTwoBlock 1 0]
          blankFiles).2.image
        = (processAll (twoDisks fun _ len => some len) [oneTwoBlock 1 0, oneTwoBlock 0 0]
          blankFiles).2.image := by
  have hlibs : Reliable (twoDisks fun _ len => some len) :=
    { whole := fun _ _ => rfl
      separate := fun devno devno' bf bf' h h' hfile => by
        have hfd : bf.fd = bf'.fd := hfile
        rw [get_twoDisks h, get_twoDisks h'] at hfd
        exact UInt32.toNat_inj.mp (Nat.add_right_cancel hfd) }
  obtain ⟨-, hperm, -⟩ := process_order_independent _ hlibs blankFiles
  exact (hperm _ _ (.swap _ _ _) (by decide) (by decide)).1

end Go2Cbt.Server
