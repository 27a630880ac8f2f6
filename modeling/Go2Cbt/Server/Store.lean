import Go2Cbt.Server.Isolation

/-!
# Server — what was acknowledged stays

The backing files over the life of the server, with any number of clients in any order and whatever
`pwrite` does.  A block that `Process` has answered with `OK` stays in its file, with the hash that
came with it, as long as no later block passes the checks for bytes of it; and whatever is in a file
was there before, or is part of a block whose hash was right (`acknowledged_stays`).
-/

namespace Go2Cbt.Server

open Go2Cbt.Protocol

/-- The block passes the checks, and is for bytes of the patch. -/
def BlockRequest.Touches (libs : Libs) (r : BlockRequest) (p : Patch Nat) : Prop :=
  ∃ bf raw, Accepts libs r bf raw ∧ ¬ (r.patch libs bf raw).Disjoint p

/-- The byte is one of the block, at its address in the file of the block's device. -/
def BlockRequest.Brings (libs : Libs) (r : BlockRequest) (file address : Nat) (byte : UInt8) :
    Prop :=
  ∃ bf raw k, Accepts libs r bf raw ∧ libs.fileOf bf.fd = file ∧ address = r.offset.toNat + k ∧
    raw[k]? = some byte

section Process

variable {libs : Libs} {r : BlockRequest} {files : Files}

/-- Part of a patch touches no more than the patch. -/
theorem disjoint_take {bf : BackingFile} {raw : Bytes} {p : Patch Nat}
    (h : (r.patch libs bf raw).Disjoint p) (n : Nat) : (r.patch libs bf (raw.take n)).Disjoint p := by
  intro hfile
  have hle : (raw.take n).length ≤ raw.length := by
    rw [List.length_take]
    exact min_le_right _ _
  rcases h hfile with hbefore | hbehind
  · exact .inl ((Nat.add_le_add_left hle _).trans hbefore)
  · exact .inr hbehind

/-- What `Process` makes of the files: nothing, or the front of a block that passed the checks, and
the whole block if it answers `OK`. -/
theorem image_process_cases (libs : Libs) (r : BlockRequest) (files : Files) :
    ((processRequest libs r files).1 ≠ .ok ∧
      (processRequest libs r files).2.2.image = files.image) ∨
    ∃ bf raw n, Accepts libs r bf raw ∧
      ((processRequest libs r files).1 = .ok → raw.length ≤ n) ∧
      (processRequest libs r files).2.2.image
        = (r.patch libs bf (raw.take n)).apply files.image := by
  cases hcheck : r.check libs with
  | error status =>
      obtain ⟨hne, hstatus, hfiles⟩ := process_of_refused hcheck files
      exact .inl ⟨hstatus ▸ hne, by rw [hfiles]⟩
  | ok found =>
      have haccepts := check_eq_ok_iff.mp hcheck
      cases hwrote : r.wrote libs found.2 files with
      | none =>
          obtain ⟨hstatus, himage, -⟩ := process_of_write_failed haccepts hwrote
          exact .inl ⟨by rw [hstatus]; decide, himage⟩
      | some n =>
          obtain ⟨hstatus, himage, -⟩ := process_of_write haccepts hwrote
          refine .inr ⟨found.1, found.2, n, haccepts, fun hok => ?_, himage⟩
          by_contra hshort
          rw [hstatus, if_neg hshort] at hok
          cases hok

/-- A block answered `OK` is in its file. -/
theorem present_of_ok (hok : (processRequest libs r files).1 = .ok) :
    ∃ bf raw, Accepts libs r bf raw ∧
      (r.patch libs bf raw).Present (processRequest libs r files).2.2.image := by
  rcases image_process_cases libs r files with ⟨hne, -⟩ | ⟨bf, raw, n, haccepts, hwhole, himage⟩
  · exact absurd hok hne
  · refine ⟨bf, raw, haccepts, ?_⟩
    rw [himage, List.take_of_length_le (hwhole hok)]
    exact Patch.present_apply _ _

/-- A patch stays where a block does not touch it. -/
theorem present_process {p : Patch Nat} (hp : p.Present files.image) (h : ¬ r.Touches libs p) :
    p.Present (processRequest libs r files).2.2.image := by
  rcases image_process_cases libs r files with ⟨-, himage⟩ | ⟨bf, raw, n, haccepts, -, himage⟩
  · rwa [himage]
  · rw [himage]
    have hdisjoint : (r.patch libs bf raw).Disjoint p := by
      by_contra hmeets
      exact h ⟨bf, raw, haccepts, hmeets⟩
    exact (disjoint_take hdisjoint n).symm.present_apply hp

/-- A byte is as before, or part of a block that passed the checks. -/
theorem byte_process (libs : Libs) (r : BlockRequest) (files : Files) (file address : Nat) :
    (processRequest libs r files).2.2.image file address = files.image file address ∨
      r.Brings libs file address ((processRequest libs r files).2.2.image file address) := by
  rcases image_process_cases libs r files with ⟨-, himage⟩ | ⟨bf, raw, n, haccepts, -, himage⟩
  · exact .inl (by rw [himage])
  · rw [himage]
    by_cases hin : file = libs.fileOf bf.fd ∧ r.offset.toNat ≤ address ∧
        address < r.offset.toNat + (raw.take n).length
    · obtain ⟨rfl, hle, hlt⟩ := hin
      obtain ⟨k, rfl⟩ := Nat.exists_eq_add_of_le hle
      have hk : k < (raw.take n).length := by omega
      refine .inr ⟨bf, raw, k, haccepts, rfl, rfl, ?_⟩
      rw [Patch.apply, BlockRequest.patch, Function.update_self, Image.write_of_inside hk,
        List.getD_eq_getElem?_getD, List.getElem?_eq_getElem hk, Option.getD_some,
        List.getElem_take]
      rw [List.length_take] at hk
      exact List.getElem?_eq_getElem (lt_of_lt_of_le hk (min_le_right _ _))
    · refine .inl (Patch.apply_of_outside _ fun hfile => ?_)
      have hout := fun hle => mt (And.intro hfile ∘ And.intro hle) hin
      dsimp only [BlockRequest.patch] at hout ⊢
      omega

end Process

/-! ### All blocks -/

section All

variable {libs : Libs}

theorem present_processAll {p : Patch Nat} {rs : List BlockRequest} {files : Files}
    (hp : p.Present files.image) (h : ∀ r ∈ rs, ¬ r.Touches libs p) :
    p.Present (processAll libs rs files).2.image := by
  induction rs generalizing files with
  | nil => exact hp
  | cons r rs ih =>
      obtain ⟨hr, hrs⟩ := List.forall_mem_cons.mp h
      exact ih (present_process hp hr) hrs

theorem byte_processAll (rs : List BlockRequest) (files : Files) (file address : Nat) :
    (processAll libs rs files).2.image file address = files.image file address ∨
      ∃ r ∈ rs, r.Brings libs file address ((processAll libs rs files).2.image file address) := by
  induction rs generalizing files with
  | nil => exact .inl rfl
  | cons r rs ih =>
      rw [processAll]
      rcases ih (processRequest libs r files).2.2 with hsame | ⟨q, hq, hbrings⟩
      · rw [hsame]
        exact (byte_process libs r files file address).imp_right fun h =>
          ⟨r, List.mem_cons_self, h⟩
      · exact .inr ⟨q, List.mem_cons_of_mem r hq, hbrings⟩

theorem requests_processAll (rs : List BlockRequest) (files : Files) :
    (processAll libs rs files).1.map Prod.fst = rs := by
  induction rs generalizing files with
  | nil => rfl
  | cons r rs ih => exact congrArg (List.cons r) (ih _)

/-- A block and its answer, with the blocks before and after it. -/
theorem processAll_split {rs : List BlockRequest} {files : Files}
    {before after : List (BlockRequest × AckStatus)} {r : BlockRequest} {status : AckStatus}
    (h : (processAll libs rs files).1 = before ++ (r, status) :: after) :
    ∃ files', (processRequest libs r files').1 = status ∧
      (processAll libs rs files).2
        = (processAll libs (after.map Prod.fst) (processRequest libs r files').2.2).2 := by
  induction before generalizing rs files with
  | nil =>
      cases rs with
      | nil => cases h
      | cons q rs =>
          obtain ⟨hhead, hrest⟩ := List.cons.inj h
          obtain ⟨rfl, hstatus⟩ := Prod.mk.inj hhead
          refine ⟨files, hstatus, ?_⟩
          rw [← hrest, requests_processAll]
          rfl
  | cons b before ih =>
      cases rs with
      | nil => cases h
      | cons q rs => exact @ih rs (processRequest libs q files).2.2 (List.cons.inj h).2

end All

/-- **What was acknowledged stays.**  In every run of the event loop, with any number of clients in
any order and whatever `pwrite` does: a block that was answered `OK` is in its file, with the hash
that came with it, if no block after it passes the checks for bytes of it; and every byte of every
file is from before, or part of a block that passed the checks, at its address in the file of the
block's device. -/
theorem acknowledged_stays (libs : Libs) (wakes : List Wake) (files : Files) :
    let all := (Recorded.start files).run libs wakes
    (∀ before r after,
      (processAll libs (all.processed.map Prod.snd) files).1 = before ++ (r, .ok) :: after →
      ∃ bf raw, Accepts libs r bf raw ∧
        ((∀ q ∈ after, ¬ q.1.Touches libs (r.patch libs bf raw)) →
          (all.reactor.files.image (libs.fileOf bf.fd)).slice r.offset.toNat raw.length = raw)) ∧
    ∀ file address, all.reactor.files.image file address = files.image file address ∨
      ∃ p ∈ all.processed, p.2.Brings libs file address (all.reactor.files.image file address) := by
  intro all
  have hfiles : all.reactor.files = (processAll libs (all.processed.map Prod.snd) files).2 :=
    Recorded.files_run libs files wakes
  constructor
  · intro before r after hdone
    obtain ⟨files', hok, hafter⟩ := processAll_split hdone
    obtain ⟨bf, raw, haccepts, hpresent⟩ := present_of_ok hok
    refine ⟨bf, raw, haccepts, fun hlater => ?_⟩
    rw [hfiles, hafter]
    refine present_processAll hpresent fun q hq => ?_
    obtain ⟨p, hp, rfl⟩ := List.mem_map.mp hq
    exact hlater p hp
  · intro file address
    rw [hfiles]
    refine (byte_processAll _ files file address).imp_right ?_
    rintro ⟨q, hq, hbrings⟩
    obtain ⟨p, hp, rfl⟩ := List.mem_map.mp hq
    exact ⟨p, hp, hbrings⟩

end Go2Cbt.Server
