import Go2Cbt.Server.Answers
import Mathlib.Data.List.TakeWhile

/-!
# Server — where a connection writes

The greeting names a device, and so does the header of every block.  A block is written to the
device of its own header (`writes_follow_headers`), which need not be that of the greeting
(`block_crosses_devices`).
-/

namespace Go2Cbt.Server

open Go2Cbt.Protocol MessageParser

/-- The message is a block for the registered device behind the descriptor. -/
def WritesTo (libs : Libs) (msg : ParsedMessage) (fd : Nat) : Prop :=
  MessageType.ofCode msg.header.type = some .dataBlock ∧
    ∃ bf, libs.diskMap.get msg.header.devNo = some bf ∧ bf.fd = fd

/-- A file keeps its contents if nothing is written to its descriptors. -/
def Untouched (libs : Libs) (fds : List Nat) (files files' : Files) : Prop :=
  ∀ file, (∀ fd ∈ fds, libs.fileOf fd ≠ file) → files'.image file = files.image file

/-- A `pwrite` is recorded, and touches one file. -/
theorem pwrite_calls (libs : Libs) (fd : Nat) (data : Bytes) (offset : UInt64) (files : Files) :
    (pwrite libs fd data offset files).2.calls = files.calls ++ [fd] ∧
      Untouched libs [fd] files (pwrite libs fd data offset files).2 := by
  rw [pwrite]
  by_cases hneg : offset.toNat ≥ 2 ^ 63
  · rw [if_pos hneg]
    exact ⟨rfl, fun _ _ => rfl⟩
  · rw [if_neg hneg]
    cases libs.pwrite files.calls.length data.length with
    | none => exact ⟨rfl, fun _ _ => rfl⟩
    | some n =>
        exact ⟨rfl, fun file hfile => Function.update_of_ne (hfile fd List.mem_cons_self).symm _ _⟩

/-- `Process` writes nothing, or once to the device of the request. -/
theorem processRequest_calls (libs : Libs) (r : BlockRequest) (files : Files) :
    ∃ fds : List Nat, (processRequest libs r files).2.2.calls = files.calls ++ fds ∧
      Untouched libs fds files (processRequest libs r files).2.2 ∧
      (fds = [] ∨ ∃ bf, libs.diskMap.get r.devno = some bf ∧ fds = [bf.fd]) := by
  cases hcheck : r.check libs with
  | error status =>
      have hfiles := (process_of_refused hcheck files).2.2
      rw [hfiles]
      exact ⟨[], (List.append_nil _).symm, fun _ _ => rfl, .inl rfl⟩
  | ok found =>
      obtain ⟨bf, raw⟩ := found
      have hfiles : (processRequest libs r files).2.2
          = (pwrite libs bf.fd raw r.offset files).2 := by
        rw [processRequest_eq, hcheck]
        dsimp only
        cases pwrite libs bf.fd raw r.offset files with
        | mk written files' =>
            dsimp only
            split <;> rfl
      obtain ⟨hcalls, huntouched⟩ := pwrite_calls libs bf.fd raw r.offset files
      rw [hfiles]
      exact ⟨[bf.fd], hcalls, huntouched, .inr ⟨bf, (check_eq_ok_iff.mp hcheck).device, rfl⟩⟩

/-- Only a block after an accepted greeting writes. -/
theorem react_calls (libs : Libs) (c : Session) (files : Files) {r : ParseResult}
    (hr : Parsed r) :
    ∃ fds : List Nat, (react libs c files r).files.calls = files.calls ++ fds ∧
      Untouched libs fds files (react libs c files r).files ∧
      (fds = [] ∨ c.helloDone = true ∧
        ∃ msg fd, r = .ok msg ∧ WritesTo libs msg fd ∧ fds = [fd]) := by
  have hnothing : (react libs c files r).files = files →
      ∃ fds : List Nat, (react libs c files r).files.calls = files.calls ++ fds ∧
        Untouched libs fds files (react libs c files r).files ∧
        (fds = [] ∨ c.helloDone = true ∧
          ∃ msg fd, r = .ok msg ∧ WritesTo libs msg fd ∧ fds = [fd]) := fun h => by
    rw [h]
    exact ⟨[], (List.append_nil _).symm, fun _ _ => rfl, .inl rfl⟩
  cases r with
  | ok msg =>
      cases htype : MessageType.ofCode msg.header.type with
      | none => exact hnothing (by rw [react, htype])
      | some t =>
          cases t with
          | hello =>
              refine hnothing ?_
              rw [react, htype]
              cases hdone : c.helloDone with
              | true => rw [handleHello_again libs files hdone]
              | false =>
                  cases hgreets : greets libs msg with
                  | true => rw [handleHello_accepts libs hr files htype hdone hgreets]
                  | false =>
                      obtain ⟨status, -, h⟩ := handleHello_rejects libs hr files htype hdone hgreets
                      rw [h]
          | dataBlock =>
              rcases Bool.eq_false_or_eq_true c.helloDone with hdone | hdone
              · obtain ⟨fds, hcalls, huntouched, hfds⟩ :=
                  processRequest_calls libs (.ofMessage msg) files
                rw [react, htype]
                dsimp only
                rw [handleDataBlock_greeted libs hr files htype hdone]
                refine ⟨fds, hcalls, huntouched, hfds.imp_right ?_⟩
                rintro ⟨bf, hdevice, rfl⟩
                exact ⟨hdone, msg, bf.fd, rfl, ⟨htype, bf, hdevice, rfl⟩, rfl⟩
              · refine hnothing ?_
                rw [react, htype]
                dsimp only
                rw [handleDataBlock_early libs files hdone]
          | bye => exact hnothing (by rw [react, htype]; rfl)
          | ack => exact hnothing (by rw [react, htype])
          | error => exact hnothing (by rw [react, htype])
  | _ => exact hnothing rfl

/-- The messages from the first accepted greeting on. -/
def afterGreeting (libs : Libs) (rs : List ParseResult) : List ParseResult :=
  rs.dropWhile fun r => !accepts libs r

theorem afterGreeting_append {libs : Libs} {rs : List ParseResult}
    (h : rs.any (accepts libs) = true) (r : ParseResult) :
    afterGreeting libs (rs ++ [r]) = afterGreeting libs rs ++ [r] := by
  rw [afterGreeting, List.dropWhile_append, if_neg]
  · rfl
  · intro hempty
    obtain ⟨r', hr', haccepts⟩ := List.any_eq_true.mp h
    have hnone := List.dropWhile_eq_nil_iff.mp (List.isEmpty_iff.mp hempty) r' hr'
    rw [haccepts] at hnone
    cases hnone

theorem afterGreeting_sublist (libs : Libs) (rs : List ParseResult) (r : ParseResult) :
    (afterGreeting libs rs).Sublist (afterGreeting libs (rs ++ [r])) := by
  rw [afterGreeting, afterGreeting, List.dropWhile_append]
  split
  · next hempty =>
    rw [List.isEmpty_iff.mp hempty]
    exact List.nil_sublist _
  · exact List.sublist_append_left _ _

/-- The writes of a service. -/
structure Served.Writes (libs : Libs) (files : Files) (rs : List ParseResult) (files' : Files)
    (fds : List Nat) : Prop where
  calls : files'.calls = files.calls ++ fds
  untouched : Untouched libs fds files files'
  blocks : ∃ blocks : List ParsedMessage, List.Forall₂ (WritesTo libs) blocks fds ∧
    (blocks.map ParseResult.ok).Sublist (afterGreeting libs rs)

/-- **A service writes only for the blocks after an accepted greeting**, once for each at most,
and to the device that the block names. -/
theorem Served.writes {libs : Libs} {files : Files} {rs : List ParseResult} {st : Serving}
    {live : Bool} (h : Served libs files rs st live) :
    ∃ fds, Served.Writes libs files rs st.files fds := by
  induction h with
  | start =>
      exact ⟨[], (List.append_nil _).symm, fun _ _ => rfl, [], .nil, List.nil_sublist _⟩
  | lose _ ih => exact ih
  | @handle rs st hserved r hparsed ih =>
      obtain ⟨fds, hcalls, huntouched, blocks, hblocks, hsublist⟩ := ih
      obtain ⟨fds', hcalls', huntouched', hfds'⟩ := react_calls libs st.session st.files hparsed
      refine ⟨fds ++ fds', ?_, fun file hfile => ?_, ?_⟩
      · rw [respond, hcalls', hcalls, List.append_assoc]
      · rw [respond, huntouched' file fun fd hfd => hfile fd (List.mem_append_right _ hfd)]
        exact huntouched file fun fd hfd => hfile fd (List.mem_append_left _ hfd)
      · rcases hfds' with rfl | ⟨hdone, msg, fd, rfl, hwrites, rfl⟩
        · rw [List.append_nil]
          exact ⟨blocks, hblocks, hsublist.trans (afterGreeting_sublist libs rs r)⟩
        · have hgreeted : rs.any (accepts libs) = true :=
            (hserved.answers.2 rfl).accepted.symm.trans hdone
          refine ⟨blocks ++ [msg], List.rel_append hblocks (.cons hwrites .nil), ?_⟩
          rw [List.map_append, afterGreeting_append hgreeted]
          exact hsublist.append (List.Sublist.refl _)

/-- Every write of the run goes to the device of the greeting. -/
def Isolated (libs : Libs) (files : Files) (s : Host) : Prop :=
  ∀ fds, s.files.calls = files.calls ++ fds → ∀ fd ∈ fds,
    ∃ bf, libs.diskMap.get s.session.devno = some bf ∧ bf.fd = fd

/-- A greeting for a disk of 1 MB. -/
def helloMessage (devNo : UInt32) : Bytes :=
  MsgHeader.bytes
      { magic := protocolMagic, type := MessageType.hello.code, devNo, reserved := 0 }
    ++ HelloBody.bytes
      { versionId := 1, devNo, totalBlocks := 1, totalSize := 1048576, versionType := .replicate 32 0 }

/-- A block as a message. -/
def BlockRequest.message (r : BlockRequest) : Bytes :=
  MsgHeader.bytes
      { magic := protocolMagic, type := MessageType.dataBlock.code, devNo := r.devno, reserved := 0 }
    ++ r.header.bytes ++ r.payload

/-- **The writes of a connection**: each is for a block that came after an accepted greeting, at
most once for each such block, and goes to the registered file of the device that the header of
the block names. -/
theorem writes_follow_headers (libs : Libs) (send : SendSide) (files : Files)
    (events : List IoEvent) :
    let s := (receive libs send events (.accept files)).1
    ∃ fds, Served.Writes libs files s.delivered s.files fds :=
  (served_receive libs send files events).writes

/-- A greeting for disk 0, and a block for disk 1. -/
def crossingStream : Bytes := helloMessage 0 ++ (oneTwoBlock 1 0).message

/-- The service that the stream gets. -/
def crossingService : Framing.Receiver Serving ParseResult :=
  Framing.feed frames (respond (twoDisks fun _ len => some len))
    { state := .start blankFiles, rest := [], live := true, items := [] }
    ((ofChunks [crossingStream]).flatMap IoEvent.data)

theorem crossingService_writes :
    crossingService.state.files.calls = [4] ∧ crossingService.state.session.devno = 0 := by
  decide +kernel

theorem not_isolated_of_view {run : Host × List IoEvent}
    (hview : run.1.view.push (run.2.flatMap IoEvent.data) = crossingService) :
    ¬ Isolated (twoDisks fun _ len => some len) blankFiles run.1 := by
  intro hisolated
  obtain ⟨hcalls, hdevno⟩ := crossingService_writes
  rw [← hview] at hcalls hdevno
  have hzero : run.1.session.devno = 0 := hdevno
  obtain ⟨bf, hdevice, hfd⟩ := hisolated [4] hcalls 4 (.head _)
  rw [hzero] at hdevice
  have hfile := get_twoDisks hdevice
  rw [hfd] at hfile
  exact absurd hfile (by decide)

/-- The connection that greeted for disk 0 writes to disk 1. -/
theorem block_crosses_devices :
    ¬ Isolated (twoDisks fun _ len => some len) blankFiles
      (receive (twoDisks fun _ len => some len) (fun _ _ => .again)
        (ofChunks [crossingStream]) (.accept blankFiles)).1 := by
  have hopen : KeepsOpen fun _ _ => .again := fun _ _ => .inl rfl
  have hlen : crossingStream.length = 182 := by decide +kernel
  have hfit := allFit_of_length_le (fun _ _ => .again) (twoDisks fun _ len => some len)
    (List.forall_mem_singleton.mpr (List.ne_nil_of_length_eq_add_one hlen))
    (List.forall_mem_singleton.mpr (hlen.trans_le (by decide))) (quiet_accept blankFiles)
  have hview := (receive_view hopen _ (quiet_accept blankFiles) hfit).1
  rw [view_accept, ← crossingService] at hview
  exact not_isolated_of_view hview

end Go2Cbt.Server
