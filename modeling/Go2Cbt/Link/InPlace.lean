import Go2Cbt.Engine.Pipeline
import Go2Cbt.Link.Peer
import Go2Cbt.Server.Answers

/-!
# Link — blocks in their places

A block is in its place if the file of its device holds, at the address of its number, as many
bytes as it announced with the hash it announced.  The server answers OK only for a block that it
has put in its place (`answer_block`), and what it does with another block leaves it there
(`InPlace.handle`).
-/

namespace Go2Cbt.Link

open Go2Cbt.Protocol Go2Cbt.Client Go2Cbt.Engine Go2Cbt.Server

/-- A block is in its place. -/
def InPlace (libs : Libs) (files : Files) : ClientMessage → Prop
  | .block devNo blockIndex rawSize _ hash _ =>
      rawSize.toNat ≤ blockSize ∧ ∃ bf, libs.diskMap.get devNo = some bf ∧
        libs.sha256 ((files.image (libs.fileOf bf.fd)).slice (blockIndex.toNat * blockSize)
          rawSize.toNat) = hash
  | _ => False

/-- The block number that the offset of the write stands for. -/
def placeOf (blockIndex : UInt64) : Nat := blockIndex.toNat % 2 ^ 44

/-- A message of a block. -/
def IsBlock : ClientMessage → Prop
  | .block _ _ _ _ _ _ => True
  | _ => False

/-- What the server does between the channels: it handles the first message.  One that is too
large makes it close the connection, and it handles no other. -/
def takes (libs : Libs) (p : Peer) (queue : List ClientMessage) (reply : Bytes) (p' : Peer)
    (queue' : List ClientMessage) : Prop :=
  serves libs p queue reply p' queue' ∧ ∀ m ∈ queue.head?, m.Sendable

section Handle

variable {libs : Libs} {p : Peer} {m m' : ClientMessage}

variable (libs) in
/-- **What the server does with a block**: it goes on, answers with an acknowledgement of it, and
has put it in its place if the status is 0. -/
theorem answer_block (hp : p.Greeted) (hm : IsBlock m) (hsend : m.Sendable) :
    (p.handle libs m).Greeted ∧ ∃ ack, p.answer libs m = ackMessage ack ∧
      ack.blockIndex = blockIndexOf m ∧
      (ack.status = 0 → (blockIndexOf m).toNat < 2 ^ 44 →
        InPlace libs (p.handle libs m).serving.files m) := by
  cases m with
  | hello | bye => exact hm.elim
  | block devNo blockIndex rawSize compressedData hash versionId =>
      obtain ⟨hgreeted, hfiles, hanswer⟩ :=
        handle_block libs hp devNo blockIndex rawSize hsend hash versionId
      refine ⟨hgreeted, _, hanswer, ?_, ?_⟩
      · rw [processRequest_ack]
        rfl
      · rw [processRequest_ack, hfiles]
        intro hstatus hidx
        have hok := (AckStatus.code_eq_zero_iff _).mp hstatus
        obtain ⟨bf, raw, hw⟩ := (process_exact_iff libs _ _).mpr
          (fun hwraps => not_lt.mpr hwraps.1 hidx) hok
        refine ⟨?_, bf, hw.device, ?_⟩
        · obtain ⟨_, _, haccepts⟩ := accepts_of_ok hok
          exact haccepts.size.2
        · have hlength : raw.length = rawSize.toNat := hw.length
          have hslice : (((p.serving.files.image (libs.fileOf bf.fd)).write
              (blockIndex.toNat * blockSize) raw).slice (blockIndex.toNat * blockSize) rawSize.toNat)
                = raw := by
            rw [← hlength]
            exact Image.slice_write_self _ _ _
          rw [hw.image, Function.update_self]
          exact (congrArg libs.sha256 hslice).trans hw.hash

/-- **A block stays in its place** as long as no block comes to the same. -/
theorem InPlace.handle (h : InPlace libs p.serving.files m)
    (hm : (blockIndexOf m).toNat < 2 ^ 44) (hp : p.Greeted) (hm' : IsBlock m')
    (hsend : m'.Sendable)
    (hne : placeOf (blockIndexOf m') ≠ (blockIndexOf m).toNat) :
    InPlace libs (p.handle libs m').serving.files m := by
  cases m with
  | hello | bye => exact h.elim
  | block devNo blockIndex rawSize compressedData hash versionId =>
      cases m' with
      | hello | bye => exact hm'.elim
      | block devNo' blockIndex' rawSize' compressedData' hash' versionId' =>
          obtain ⟨hsize, bf, hdevice, hhash⟩ := h
          obtain ⟨-, hfiles, -⟩ :=
            handle_block libs hp devNo' blockIndex' rawSize' hsend hash' versionId'
          refine ⟨hsize, bf, hdevice, ?_⟩
          rw [hfiles, ← hhash]
          refine congrArg libs.sha256 (Image.slice_eq_slice_iff.mpr fun k hk => ?_)
          refine process_of_outside libs _ _ ?_
          have hplaces : blockIndex'.toNat % 2 ^ 44 ≠ blockIndex.toNat := hne
          rw [offset_toNat_mod]
          change _ < blockIndex'.toNat % 2 ^ 44 * blockSize ∨
            blockIndex'.toNat % 2 ^ 44 * blockSize + blockSize ≤ _
          generalize blockIndex'.toNat % 2 ^ 44 = a at hplaces ⊢
          generalize blockIndex.toNat = b at hplaces ⊢
          rw [blockSize_eq] at hsize ⊢
          omega

end Handle

end Go2Cbt.Link
