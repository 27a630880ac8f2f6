import Go2Cbt.Server.EventLoop
import Mathlib.Data.List.TakeWhile

/-!
# Server — the process

`main.cpp` around the server: the options, `DiskMap::Add` for every `--disk`, `Start` and `Run`, and
what is closed in the end by `CloseAll` and the destructors.  `OnSignal` comes as in the event loop,
between the handling of two events.

While the server serves, the file of a device is that of the last `--disk` with its number, on a
descriptor that no connection and no other device has; at the end every file has been closed once,
but for those whose device was named again (`server_process`).
-/

namespace Go2Cbt.Server

/-! ### The options -/

/-- `isspace`. -/
def isSpace (c : Char) : Bool := c = ' ' || (9 ≤ c.toNat && c.toNat ≤ 13)

/-- The sign of a number, and what comes after it. -/
def takeSign : List Char → Bool × List Char
  | '-' :: s => (true, s)
  | '+' :: s => (false, s)
  | s => (false, s)

/-- `std::stoul`, with `none` for what it throws.  A negative number wraps around. -/
def stoul (s : List Char) : Option Nat :=
  let (negative, s) := takeSign (s.dropWhile isSpace)
  let digits := s.takeWhile Char.isDigit
  if digits = [] then none
  else
    let n := Nat.ofDigitChars 10 digits 0
    if n ≥ 2 ^ 64 then none else some (if negative then (2 ^ 64 - n) % 2 ^ 64 else n)

/-- `ParseDisk`. -/
def parseDisk (s : List Char) : Option (UInt32 × String) :=
  match s.dropWhile (· ≠ ':') with
  | [] => none
  | _ :: path =>
      match stoul (s.takeWhile (· ≠ ':')) with
      | none => none
      | some v =>
          if v > 0xFFFFFFFF then none
          else if path = [] then none
          else some (UInt32.ofNat v, String.ofList path)

/-- What `getopt_long` returns, one call after the other. -/
inductive CliOption where
  | listen (value : List Char)
  | disk (value : List Char)
  | verbose
  | help
  | unknown

/-- `CliArgs`. -/
structure CliArgs where
  listen : List Char
  disks : List (UInt32 × String)
  verbose : Bool

def CliArgs.none : CliArgs := { listen := [], disks := [], verbose := false }

/-- The options of `main`.  With `none` it returns. -/
def parseOptions (args : CliArgs) : List CliOption → Option CliArgs
  | [] => if args.listen = [] ∨ args.disks = [] then Option.none else some args
  | .listen value :: options => parseOptions { args with listen := value } options
  | .disk value :: options =>
      match parseDisk value with
      | Option.none => Option.none
      | some disk => parseOptions { args with disks := args.disks ++ [disk] } options
  | .verbose :: options => parseOptions { args with verbose := true } options
  | .help :: _ => Option.none
  | .unknown :: _ => Option.none

section ParseDisk

variable {n : Nat}

theorem isDigit_of_mem {c : Char} (h : c ∈ Nat.toDigits 10 n) : c.isDigit = true :=
  Nat.isDigit_of_mem_toDigits (by decide) (by decide) h

/-- A digit is neither a space nor a sign. -/
theorem plain_of_isDigit {c : Char} (h : c.isDigit = true) (s : List Char) :
    isSpace c = false ∧ takeSign (c :: s) = (false, c :: s) := by
  have hrange : 48 ≤ c.toNat ∧ c.toNat ≤ 57 := Char.isDigit_iff_toNat.mp h
  constructor
  · have hne : c ≠ ' ' := by
      rintro rfl
      exact Bool.noConfusion h
    have hlt : ¬ c.toNat ≤ 13 := by omega
    simp [isSpace, hne, hlt]
  · rw [takeSign]
    · rintro s' hs
      cases hs
      exact Bool.noConfusion h
    · rintro s' hs
      cases hs
      exact Bool.noConfusion h

theorem stoul_toDigits (h : n < 2 ^ 64) : stoul (Nat.toDigits 10 n) = some n := by
  obtain ⟨c, digits, hdigits⟩ := List.exists_cons_of_ne_nil (Nat.toDigits_ne_nil (n := n) (b := 10))
  have hall : ∀ d ∈ c :: digits, d.isDigit = true := fun d hd => isDigit_of_mem (hdigits ▸ hd)
  obtain ⟨hspace, hsign⟩ := plain_of_isDigit (hall c List.mem_cons_self) digits
  have hvalue : Nat.ofDigitChars 10 (c :: digits) 0 = n := by
    rw [← hdigits]
    exact Nat.ofDigitChars_ten_toDigits
  have htake : (c :: digits).takeWhile Char.isDigit = c :: digits :=
    List.takeWhile_eq_self_iff.mpr hall
  rw [hdigits, stoul, List.dropWhile_cons, if_neg (by simp [hspace]), hsign]
  dsimp only
  rw [htake, if_neg (List.cons_ne_nil _ _), hvalue, if_neg (not_le.mpr h)]
  rfl

/-- **What `--disk` is meant for**: a decimal number, a colon and a path. -/
theorem parseDisk_toDigits (h : n < 2 ^ 32) {path : List Char} (hpath : path ≠ []) :
    parseDisk (Nat.toDigits 10 n ++ ':' :: path) = some (UInt32.ofNat n, String.ofList path) := by
  have hcolon : ∀ c ∈ Nat.toDigits 10 n, decide (c ≠ ':') = true := by
    intro c hc
    rw [decide_eq_true_eq]
    rintro rfl
    exact Bool.noConfusion (isDigit_of_mem hc)
  have hle : ¬ n > 0xFFFFFFFF := by omega
  rw [parseDisk, List.dropWhile_append_of_pos hcolon, List.takeWhile_append_of_pos hcolon,
    List.dropWhile_cons, if_neg (by decide), List.takeWhile_cons, if_neg (by decide),
    List.append_nil, stoul_toDigits (h.trans (by decide))]
  dsimp only
  rw [if_neg hle, if_neg hpath]

end ParseDisk

/-! ### The files -/

/-- What `fstat` gives, as far as `Add` looks. -/
structure Stat where
  regular : Bool
  size : Int

/-- What `open` and `fstat` give for a path. -/
structure OpenOutcome where
  fd : Option Nat
  stat : Option Stat

/-- The files, and the descriptors of the process. -/
structure OpenFiles where
  map : DiskMap
  table : Descriptors

/-- `DiskMap::Add`. -/
def OpenFiles.add (devno : UInt32) (path : String) (o : OpenOutcome) (files : OpenFiles) :
    Bool × OpenFiles :=
  match o.fd with
  | none => (false, files)
  | some fd =>
      let opened := files.table.opened fd
      match o.stat with
      | none => (false, { files with table := opened.closed fd })
      | some st =>
          if st.regular = false then (false, { files with table := opened.closed fd })
          else if st.size ≤ 0 then (false, { files with table := opened.closed fd })
          else
            (true,
              { map := files.map.insert devno.toNat
                  { fd, sizeBytes := UInt64.ofNat st.size.toNat, path }
                table := opened })

/-- `DiskMap::CloseAll`. -/
def OpenFiles.closeAll (files : OpenFiles) : OpenFiles :=
  { map := .empty
    table := files.map.entries.foldl (fun t entry => t.closed entry.2.fd) files.table }

/-- Where `main` is. -/
inductive ProcessPhase where
  | adding
  | serving
  | exited
  deriving DecidableEq, Repr

/-- The process.  `added` and `replaced` are history: the disks that `Add` has put into the map, and
the descriptors that it has overwritten there. -/
structure ServerProcess where
  phase : ProcessPhase
  disks : List (UInt32 × String)
  map : DiskMap
  server : Loop
  added : List (UInt32 × String)
  replaced : List Nat

namespace ServerProcess

/-- `main`, as far as the options go. -/
def launch (options : List CliOption) (files : Files) (table : Descriptors) : ServerProcess :=
  let args := parseOptions .none options
  { phase := if args.isSome then .adding else .exited
    disks := args.elim [] CliArgs.disks
    map := .empty
    server := .fresh files table
    added := []
    replaced := [] }

/-- The process with these files. -/
def withFiles (p : ServerProcess) (files : OpenFiles) : ServerProcess :=
  { p with map := files.map, server := { p.server with table := files.table } }

def files (p : ServerProcess) : OpenFiles := { map := p.map, table := p.server.table }

/-- The descriptor of a device. -/
def descriptor (p : ServerProcess) (devno : UInt32) : Option Nat :=
  (p.map.get devno).map BackingFile.fd

/-- One turn of the loop of `main` over the disks. -/
def add (p : ServerProcess) (devno : UInt32) (path : String) (o : OpenOutcome)
    (rest : List (UInt32 × String)) : ServerProcess :=
  let result := p.files.add devno path o
  let added := p.withFiles result.2
  if result.1 = true then
    { added with
      disks := rest
      added := p.added ++ [(devno, path)]
      replaced := p.replaced ++ (p.descriptor devno).toList }
  else { added.withFiles added.files.closeAll with phase := .exited }

/-- `main` returns: the files are closed, and then what the server has. -/
def leave (p : ServerProcess) : ServerProcess :=
  let closed := p.withFiles p.files.closeAll
  { closed with phase := .exited, server := closed.server.stop }

end ServerProcess

/-- One step.  `Run` returns when it has been stopped or when `epoll_wait` fails. -/
inductive ProcessStep (libs : Libs) : ServerProcess → Option LoopAction → ServerProcess → Prop where
  | add {p : ServerProcess} {devno : UInt32} {path : String} {rest : List (UInt32 × String)}
      {o : OpenOutcome} (h : p.phase = .adding) (hdisks : p.disks = (devno, path) :: rest)
      (hfd : ∀ fd, o.fd = some fd → p.server.table.isOpen fd = false) :
      ProcessStep libs p none (p.add devno path o rest)
  | serve {p : ServerProcess} (h : p.phase = .adding) (hdisks : p.disks = []) :
      ProcessStep libs p none { p with phase := .serving }
  | loop {p : ServerProcess} {a : LoopAction} {server : Loop} (h : p.phase = .serving)
      (hst : LoopStep { libs with diskMap := p.map } p.server a server) :
      ProcessStep libs p (some a) { p with server }
  | leave {p : ServerProcess} (h : p.phase = .serving) (hstarted : p.server.started = true)
      (hidle : p.server.pending = []) : ProcessStep libs p none p.leave

/-! ### What is open -/

/-- The path that the last of the disks with this number has. -/
def lastPath (disks : List (UInt32 × String)) (devno : UInt32) : Option String :=
  (disks.reverse.find? fun disk => disk.1 = devno).map Prod.snd

theorem lastPath_append_singleton (disks : List (UInt32 × String)) (devno n : UInt32)
    (path : String) : lastPath (disks ++ [(devno, path)]) n
      = if n = devno then some path else lastPath disks n := by
  rw [lastPath, List.reverse_append, List.reverse_singleton, List.singleton_append]
  by_cases hn : n = devno
  · rw [List.find?_cons_of_pos (by simpa using hn.symm), if_pos hn]
    rfl
  · rw [List.find?_cons_of_neg (by simpa using Ne.symm hn), if_neg hn]
    rfl

/-- The descriptors in the map. -/
def mapped (map : DiskMap) : Set Nat := { fd | ∃ e ∈ map.entries, e.2.fd = fd }

/-- What `Add` can do. -/
theorem OpenFiles.add_cases (files : OpenFiles) (devno : UInt32) (path : String) (o : OpenOutcome) :
    ((files.add devno path o).1 = false ∧
      ((files.add devno path o).2 = files ∨ ∃ fd, o.fd = some fd ∧
        (files.add devno path o).2 = { files with table := (files.table.opened fd).closed fd })) ∨
    ((files.add devno path o).1 = true ∧ ∃ bf : BackingFile, o.fd = some bf.fd ∧ bf.path = path ∧
      (files.add devno path o).2
        = { map := files.map.insert devno.toNat bf, table := files.table.opened bf.fd }) := by
  obtain ⟨_ | fd, stat⟩ := o
  · exact .inl ⟨rfl, .inl rfl⟩
  · obtain _ | st := stat
    · exact .inl ⟨rfl, .inr ⟨fd, rfl, rfl⟩⟩
    · rw [OpenFiles.add]
      dsimp only
      split
      · exact .inl ⟨rfl, .inr ⟨fd, rfl, rfl⟩⟩
      · split
        · exact .inl ⟨rfl, .inr ⟨fd, rfl, rfl⟩⟩
        · exact .inr ⟨rfl, _, rfl, rfl, rfl⟩

theorem notMem_mapped_empty {fd : Nat} : fd ∉ mapped .empty := by
  rintro ⟨e, he, -⟩
  exact List.not_mem_nil he

/-- The files are open, each on a descriptor of its own, besides the descriptors of `S`. -/
structure OpenFiles.Holds (S : Set Nat) (files : OpenFiles) : Prop where
  table : files.table.Holds (S ∪ mapped files.map)
  distinct : ∀ e ∈ files.map.entries, ∀ e' ∈ files.map.entries, e.2.fd = e'.2.fd → e.1 = e'.1
  apart : ∀ e ∈ files.map.entries, e.2.fd ∉ S

namespace OpenFiles.Holds

variable {S : Set Nat} {files : OpenFiles} {devno : UInt32} {path : String} {o : OpenOutcome}

theorem congr (h : files.Holds S) {S' : Set Nat} (hS : ∀ fd, fd ∈ S' ↔ fd ∈ S) :
    files.Holds S' where
  table := h.table.congr fun fd => or_congr_left (hS fd)
  distinct := h.distinct
  apart e he hmem := h.apart e he ((hS _).mp hmem)

/-- A file that is not kept is closed again. -/
theorem reclosed (h : files.Holds S) {fd : Nat} (hfd : files.table.isOpen fd = false) :
    ({ files with table := (files.table.opened fd).closed fd } : OpenFiles).Holds S where
  table := ((h.table.opened fd).closed (Set.mem_insert fd _)).congr fun n => by
    have hnot := h.table.notMem_iff.mp hfd
    rw [Set.insert_sdiff_of_mem _ (Set.mem_singleton fd), Set.sdiff_singleton_eq_self hnot]
  distinct := h.distinct
  apart := h.apart

/-- **`Add` fails**, whichever way, and nothing has changed. -/
theorem add_failed (h : files.Holds S) (hfd : ∀ fd, o.fd = some fd → files.table.isOpen fd = false)
    (hfailed : (files.add devno path o).1 = false) : (files.add devno path o).2.Holds S := by
  rcases add_cases files devno path o with ⟨-, heq | ⟨fd, ho, heq⟩⟩ | ⟨hdone, -⟩
  · rw [heq]
    exact h
  · rw [heq]
    exact h.reclosed (hfd fd ho)
  · exact absurd (hfailed.symm.trans hdone) Bool.noConfusion

/-- **`Add` succeeds.**  The file that was there before stays open. -/
theorem add_done (h : files.Holds S) (hfd : ∀ fd, o.fd = some fd → files.table.isOpen fd = false)
    (hdone : (files.add devno path o).1 = true) :
    (files.add devno path o).2.Holds
      (S ∪ { fd | (files.map.get devno).map BackingFile.fd = some fd }) ∧
    ∀ n, ((files.add devno path o).2.map.get n).map BackingFile.path
      = if n = devno then some path else (files.map.get n).map BackingFile.path := by
  rcases add_cases files devno path o with ⟨hfailed, -⟩ | ⟨-, bf, ho, rfl, heq⟩
  · exact absurd (hfailed.symm.trans hdone) Bool.noConfusion
  rw [heq]
  have hnot := h.table.notMem_iff.mp (hfd bf.fd ho)
  have hinsert : ∀ e, e ∈ (files.map.insert devno.toNat bf).entries ↔
      e = (devno.toNat, bf) ∨ e ∈ files.map.entries ∧ e.1 ≠ devno.toNat := by
    rintro ⟨k, v⟩
    rw [← SortedMap.find?_eq_some_iff, SortedMap.find?_insert, ← SortedMap.find?_eq_some_iff]
    by_cases hk : k = devno.toNat
    · simp [hk, eq_comm]
    · simp [hk]
  have hold : ∀ fd, (files.map.get devno).map BackingFile.fd = some fd ↔
      ∃ e ∈ files.map.entries, e.1 = devno.toNat ∧ e.2.fd = fd := by
    intro fd
    rw [DiskMap.get, Option.map_eq_some_iff]
    constructor
    · rintro ⟨old, hget, rfl⟩
      exact ⟨_, SortedMap.find?_eq_some_iff.mp hget, rfl, rfl⟩
    · rintro ⟨⟨k, old⟩, he, rfl, rfl⟩
      exact ⟨old, SortedMap.find?_eq_some_iff.mpr he, rfl⟩
  have hnew : ∀ e ∈ files.map.entries, e.2.fd ≠ bf.fd := fun e he heq =>
    hnot (heq ▸ .inr ⟨e, he, rfl⟩)
  refine ⟨⟨(h.table.opened bf.fd).congr fun fd => ?_, ?_, ?_⟩, fun n => ?_⟩
  · simp only [mapped, hinsert, Set.mem_union, Set.mem_insert_iff, Set.mem_ofPred_eq, hold]
    constructor
    · rintro ((hS | ⟨e, he, -, heq⟩) | ⟨e, rfl | ⟨he, -⟩, heq⟩)
      · exact .inr (.inl hS)
      · exact .inr (.inr ⟨e, he, heq⟩)
      · exact .inl heq.symm
      · exact .inr (.inr ⟨e, he, heq⟩)
    · rintro (rfl | hS | ⟨e, he, heq⟩)
      · exact .inr ⟨_, .inl rfl, rfl⟩
      · exact .inl (.inl hS)
      · by_cases hkey : e.1 = devno.toNat
        · exact .inl (.inr ⟨e, he, hkey, heq⟩)
        · exact .inr ⟨e, .inr ⟨he, hkey⟩, heq⟩
  · intro e he e' he' heq
    rcases (hinsert e).mp he with rfl | ⟨hmem, hne⟩
    · rcases (hinsert e').mp he' with rfl | ⟨hmem', -⟩
      · rfl
      · exact absurd heq.symm (hnew e' hmem')
    · rcases (hinsert e').mp he' with rfl | ⟨hmem', -⟩
      · exact absurd heq (hnew e hmem)
      · exact h.distinct e hmem e' hmem' heq
  · intro e he hin
    rcases (hinsert e).mp he with rfl | ⟨hmem, hne⟩
    · rcases hin with hS | hreplaced
      · exact hnot (.inl hS)
      · obtain ⟨e', he', -, heq⟩ := (hold _).mp hreplaced
        exact hnew e' he' heq
    · rcases hin with hS | hreplaced
      · exact h.apart e hmem hS
      · obtain ⟨e', he', hkey, heq⟩ := (hold _).mp hreplaced
        exact hne ((h.distinct e hmem e' he' heq.symm).trans hkey)
  · rw [DiskMap.get, SortedMap.find?_insert]
    by_cases hn : n = devno
    · rw [if_pos (congrArg UInt32.toNat hn), if_pos hn]
      rfl
    · rw [if_neg fun heq => hn (UInt32.toNat_inj.mp heq), if_neg hn]
      rfl

/-- **`CloseAll` closes every file once.** -/
theorem closeAll (h : files.Holds S) : files.closeAll.table.Holds S := by
  have hnodup : (files.map.entries.map fun e => e.2.fd).Nodup := by
    refine List.pairwise_map.mpr (files.map.sorted.imp_of_mem fun he he' hlt heq => ?_)
    exact absurd (h.distinct _ he _ he' heq) hlt.ne
  have hclosed := h.table.foldl_closed hnodup fun fd hfd => .inr (List.mem_map.mp hfd)
  rw [List.foldl_map] at hclosed
  refine hclosed.congr fun fd => ?_
  constructor
  · exact fun hS => ⟨.inl hS, fun hmem => by
      obtain ⟨e, he, rfl⟩ := List.mem_map.mp hmem
      exact h.apart e he hS⟩
  · rintro ⟨hS | hmem, hnot⟩
    · exact hS
    · exact absurd (List.mem_map.mpr hmem) hnot

end OpenFiles.Holds

theorem lastPath_eq_none_iff {disks : List (UInt32 × String)} {devno : UInt32} :
    lastPath disks devno = none ↔ devno ∉ disks.map Prod.fst := by
  rw [lastPath, Option.map_eq_none_iff, List.find?_eq_none]
  simp only [List.mem_reverse, decide_eq_true_eq, List.mem_map, not_exists, not_and]

/-- The files and the server keep to their own descriptors, besides those of `base` and those that
were replaced. -/
structure ServerProcess.Sound (options : List CliOption) (base : Set Nat) (p : ServerProcess) :
    Prop where
  asked : p.phase ≠ .exited →
    ∃ args, parseOptions .none options = some args ∧ args.disks = p.added ++ p.disks
  fresh : p.phase = .adding → ∃ files table, p.server = .fresh files table
  all : p.phase = .serving → p.disks = []
  gone : p.phase = .exited → p.map = .empty ∧ p.server.running = false
  owns : p.server.Owns (base ∪ { fd | fd ∈ p.replaced } ∪ mapped p.map)
  distinct : ∀ e ∈ p.map.entries, ∀ e' ∈ p.map.entries, e.2.fd = e'.2.fd → e.1 = e'.1
  apart : ∀ e ∈ p.map.entries, e.2.fd ∉ base ∪ { fd | fd ∈ p.replaced }
  paths : p.phase ≠ .exited →
    ∀ devno, (p.map.get devno).map BackingFile.path = lastPath p.added devno
  replaced : p.replaced = [] ↔ (p.added.map Prod.fst).Nodup

namespace ServerProcess.Sound

variable {options : List CliOption} {base : Set Nat} {p : ServerProcess} {libs : Libs}

theorem launch {table : Descriptors} (h : table.Holds base) (files : Files) :
    (ServerProcess.launch options files table).Sound options base where
  asked hphase := by
    rw [ServerProcess.launch] at hphase ⊢
    cases hargs : parseOptions .none options with
    | none => simp [hargs] at hphase
    | some args => exact ⟨args, rfl, rfl⟩
  fresh _ := ⟨files, table, rfl⟩
  all hphase := by
    rw [ServerProcess.launch] at hphase
    dsimp only at hphase
    split at hphase <;> cases hphase
  gone _ := ⟨rfl, rfl⟩
  owns := Loop.owns_fresh (h.congr fun fd => by simp [mapped, ServerProcess.launch,
    SortedMap.empty]) files
  distinct e he := absurd he List.not_mem_nil
  apart e he := absurd he List.not_mem_nil
  paths _ _ := rfl
  replaced := iff_of_true rfl .nil

/-- The files, when the descriptors of the server count as the others. -/
theorem files (h : p.Sound options base) :
    p.files.Holds (base ∪ { fd | fd ∈ p.replaced } ∪ { fd | fd ∈ p.server.owned }) where
  table := h.owns.table.congr fun fd => by
    simp only [Set.mem_union, ServerProcess.files]
    tauto
  distinct := h.distinct
  apart e he hin := by
    rcases hin with hin | howned
    · exact h.apart e he hin
    · exact h.owns.apart _ howned (.inr ⟨e, he, rfl⟩)

theorem add (h : p.Sound options base) (hphase : p.phase = .adding) {devno : UInt32} {path : String}
    {rest : List (UInt32 × String)} (hdisks : p.disks = (devno, path) :: rest) {o : OpenOutcome}
    (hfd : ∀ fd, o.fd = some fd → p.server.table.isOpen fd = false) :
    (p.add devno path o rest).Sound options base := by
  have hrunning : p.phase ≠ .exited := hphase ▸ ProcessPhase.noConfusion
  obtain ⟨files, table, hserver⟩ := h.fresh hphase
  have hfiles : p.files.Holds (base ∪ { fd | fd ∈ p.replaced }) :=
    h.files.congr fun fd => by simp [hserver, Loop.fresh, Loop.owned]
  rw [ServerProcess.add]
  dsimp only
  split
  · next hdone =>
    obtain ⟨hheld, hpaths⟩ := hfiles.add_done hfd hdone
    have hsame : ∀ fd, fd ∈ base ∪ { fd | fd ∈ p.replaced ++ (p.descriptor devno).toList } ↔
        fd ∈ base ∪ { fd | fd ∈ p.replaced } ∪
          { fd | (p.files.map.get devno).map BackingFile.fd = some fd } := by
      intro fd
      simp only [Set.mem_union, Set.mem_ofPred_eq, List.mem_append, Option.mem_toList, or_assoc]
      rfl
    exact
      { asked := fun _ => by
          obtain ⟨args, hargs, hall⟩ := h.asked hrunning
          exact ⟨args, hargs, by simp [hall, hdisks]⟩
        fresh := fun _ => ⟨files, _, by rw [ServerProcess.withFiles, hserver]; rfl⟩
        all := fun hserving => absurd (hphase.symm.trans hserving) ProcessPhase.noConfusion
        gone := fun hexited => absurd hexited hrunning
        owns := by
          rw [ServerProcess.withFiles, hserver]
          exact Loop.owns_fresh (hheld.table.congr fun fd => or_congr_left (hsame fd)) files
        distinct := hheld.distinct
        apart := fun e he hin => hheld.apart e he ((hsame _).mp hin)
        paths := fun _ n => by
          rw [lastPath_append_singleton, ← h.paths hrunning]
          exact hpaths n
        replaced := by
          have hnone : p.descriptor devno = none ↔ devno ∉ p.added.map Prod.fst := by
            rw [← lastPath_eq_none_iff, ← h.paths hrunning, Option.map_eq_none_iff,
              ServerProcess.descriptor, Option.map_eq_none_iff]
          rw [List.append_eq_nil_iff, h.replaced, Option.toList_eq_nil_iff, hnone,
            List.map_append, List.map_singleton, (List.perm_append_singleton _ _).nodup_iff,
            List.nodup_cons, and_comm] }
  · next hfailed =>
    have hheld := (hfiles.add_failed hfd (Bool.not_eq_true _ ▸ hfailed)).closeAll
    exact
      { asked := fun hphase => absurd rfl hphase
        fresh := fun hadding => ProcessPhase.noConfusion hadding
        all := fun hserving => ProcessPhase.noConfusion hserving
        gone := fun _ => ⟨rfl, by rw [ServerProcess.withFiles, ServerProcess.withFiles, hserver]; rfl⟩
        owns := by
          rw [ServerProcess.withFiles, ServerProcess.withFiles, hserver]
          exact Loop.owns_fresh (hheld.congr fun fd => or_iff_left notMem_mapped_empty) files
        distinct := fun e he => absurd he List.not_mem_nil
        apart := fun e he => absurd he List.not_mem_nil
        paths := fun hphase => absurd rfl hphase
        replaced := h.replaced }

theorem loop (h : p.Sound options base) (hphase : p.phase = .serving) {a : LoopAction} {server : Loop}
    (hst : LoopStep { libs with diskMap := p.map } p.server a server) :
    ({ p with server } : ServerProcess).Sound options base :=
  { h with
    fresh := fun hadding => absurd (hphase.symm.trans hadding) ProcessPhase.noConfusion
    gone := fun hexited => absurd (hphase.symm.trans hexited) ProcessPhase.noConfusion
    owns := h.owns.step hst }

theorem leave (h : p.Sound options base) : p.leave.Sound options base := by
  have hclosed := h.files.closeAll
  have howns : ({ p.server with table := p.files.closeAll.table } : Loop).Owns
      (base ∪ { fd | fd ∈ p.replaced }) :=
    { h.owns with
      table := hclosed
      apart := fun fd hfd hin => h.owns.apart fd hfd (.inl hin) }
  exact
    { asked := fun hphase => absurd rfl hphase
      fresh := fun hadding => ProcessPhase.noConfusion hadding
      all := fun hserving => ProcessPhase.noConfusion hserving
      gone := fun _ => ⟨rfl, Loop.running_stop _⟩
      owns := howns.stop.congr fun fd => or_iff_left notMem_mapped_empty
      distinct := fun e he => absurd he List.not_mem_nil
      apart := fun e he => absurd he List.not_mem_nil
      paths := fun hphase => absurd rfl hphase
      replaced := h.replaced }

/-- **Every step keeps it.** -/
theorem step {a : Option LoopAction} {q : ServerProcess} (h : p.Sound options base)
    (hst : ProcessStep libs p a q) : q.Sound options base := by
  cases hst with
  | add hphase hdisks hfd => exact h.add hphase hdisks hfd
  | serve hphase hdisks =>
      have hrunning : p.phase ≠ .exited := hphase ▸ ProcessPhase.noConfusion
      exact
        { h with
          asked := fun _ => h.asked hrunning
          fresh := fun hadding => ProcessPhase.noConfusion hadding
          all := fun _ => hdisks
          gone := fun hexited => ProcessPhase.noConfusion hexited
          paths := fun _ => h.paths hrunning }
  | loop hphase hst => exact h.loop hphase hst
  | leave _ _ _ => exact h.leave

end ServerProcess.Sound

/-- **The process, from its options to its end**, whatever the server is asked in between: while it
serves, the file of each device is the one that the last `--disk` with its number has named, open on
a descriptor that no other device has, nor the server, and that is not from before; none is closed
that is not open; and when it exits, still open are the descriptors from before, those of disks
whose number was given again, of which there are none exactly if no number was, and the listening
socket of a `Start` that failed. -/
theorem server_process (libs : Libs) (files : Files) {base : Set Nat} {table : Descriptors}
    (htable : table.Holds base) (options : List CliOption) {p : ServerProcess}
    (h : Transition.Reachable (ProcessStep libs) (· = .launch options files table) p) :
    (p.phase = .serving → ∃ args, parseOptions .none options = some args ∧
      ∀ devno, (p.map.get devno).map BackingFile.path = lastPath args.disks devno) ∧
    (∀ devno bf, p.map.get devno = some bf → p.server.table.isOpen bf.fd = true ∧ bf.fd ∉ base ∧
      p.server.listenFd ≠ some bf.fd ∧ p.server.epollFd ≠ some bf.fd ∧
      p.server.reactor.conns bf.fd = none ∧
      ∀ devno' bf', p.map.get devno' = some bf' → bf'.fd = bf.fd → devno' = devno) ∧
    p.server.table.badCloses = [] ∧
    (p.phase = .exited → ∀ fd, p.server.table.isOpen fd = true ↔
      fd ∈ base ∨ fd ∈ p.replaced ∨ p.server.listenFd = some fd) ∧
    (p.replaced = [] ↔ (p.added.map Prod.fst).Nodup) := by
  have hsound : p.Sound options base := by
    refine h.invariant (P := fun p => p.Sound options base) ?_ fun _ _ _ hp hst => hp.step hst
    rintro _ rfl
    exact .launch htable files
  refine ⟨fun hserving => ?_, fun devno bf hbf => ?_, hsound.owns.table.badCloses_eq,
    fun hexited fd => ?_, hsound.replaced⟩
  · have hrunning : p.phase ≠ .exited := hserving ▸ ProcessPhase.noConfusion
    obtain ⟨args, hargs, hdisks⟩ := hsound.asked hrunning
    refine ⟨args, hargs, fun devno => ?_⟩
    rw [hdisks, hsound.all hserving, List.append_nil]
    exact hsound.paths hrunning devno
  · have hentry : (devno.toNat, bf) ∈ p.map.entries := SortedMap.find?_eq_some_iff.mp hbf
    have hmapped : bf.fd ∈ mapped p.map := ⟨_, hentry, rfl⟩
    have hother : bf.fd ∉ p.server.owned := fun howned =>
      hsound.owns.apart _ howned (.inr hmapped)
    simp only [Loop.owned, List.mem_append, Option.mem_toList, not_or] at hother
    refine ⟨(hsound.owns.table.isOpen_iff _).mpr (.inl (.inr hmapped)),
      fun hbase => hsound.apart _ hentry (.inl hbase), hother.2.1, hother.2.2, ?_, ?_⟩
    · have hnone := mt (hsound.owns.conns bf.fd).mp hother.1
      simpa using hnone
    · intro devno' bf' hbf' heq
      have hentry' : (devno'.toNat, bf') ∈ p.map.entries := SortedMap.find?_eq_some_iff.mp hbf'
      exact UInt32.toNat_inj.mp (hsound.distinct _ hentry' _ hentry heq)
  · obtain ⟨hempty, hstopped⟩ := hsound.gone hexited
    obtain ⟨hfds, hepoll⟩ := hsound.owns.idle hstopped
    rw [hsound.owns.table.isOpen_iff fd]
    simp only [hempty, Loop.owned, hfds, hepoll, Set.mem_union, Set.mem_ofPred_eq, List.nil_append,
      Option.toList_none, List.append_nil, Option.mem_toList, or_iff_left notMem_mapped_empty,
      or_assoc]

/-- The options `--listen x --disk 7:a --disk 7:b`. -/
def sameDiskTwice : List CliOption :=
  [.listen ['x'], .disk ['7', ':', 'a'], .disk ['7', ':', 'b']]

/-- A regular file of one byte, opened as `fd`. -/
def oneByteFile (fd : Nat) : OpenOutcome :=
  { fd := some fd, stat := some { regular := true, size := 1 } }

theorem parseOptions_sameDiskTwice : parseOptions .none sameDiskTwice
    = some { listen := ['x'], disks := [(7, "a"), (7, "b")], verbose := false } := rfl

/-- The address is none. -/
def noAddress : StartOutcome :=
  { address := false, socket := none, bound := false, listening := false, epoll := none }

/-- The first file stays open; the address is none. -/
theorem server_process_sameDiskTwice :
    ∃ p, Transition.Reachable (ProcessStep noDisks)
        (· = .launch sameDiskTwice noFiles standardDescriptors) p ∧
      p.phase = .exited ∧ ∀ fd, p.server.table.isOpen fd = true ↔ fd < 3 ∨ fd = 3 := by
  have hlaunch : ServerProcess.launch sameDiskTwice noFiles standardDescriptors
      = { phase := .adding, disks := [(7, "a"), (7, "b")], map := .empty,
          server := .fresh noFiles standardDescriptors, added := [], replaced := [] } := by
    rw [ServerProcess.launch, parseOptions_sameDiskTwice]
    rfl
  have h₀ : Transition.Reachable (ProcessStep noDisks)
      (· = .launch sameDiskTwice noFiles standardDescriptors) _ := ⟨_, [], hlaunch, .nil _⟩
  have h₁ := h₀.next (@ProcessStep.add _ _ _ _ _ (oneByteFile 3) rfl rfl fun fd hfd => by
    cases hfd; rfl)
  have h₂ := h₁.next (@ProcessStep.add _ _ _ _ _ (oneByteFile 4) rfl rfl fun fd hfd => by
    cases hfd; rfl)
  have h₃ := h₂.next (.serve rfl rfl)
  have h₄ := h₃.next (.loop rfl (@LoopStep.start _ _ noAddress rfl nofun nofun))
  have h₅ := h₄.next (.leave rfl rfl rfl)
  obtain ⟨-, -, -, hexited, -⟩ := server_process noDisks noFiles standardDescriptors_holds _ h₅
  refine ⟨_, h₅, rfl, fun fd => (hexited rfl fd).trans ?_⟩
  change fd < 3 ∨ fd ∈ [3] ∨ none = some fd ↔ _
  simp

end Go2Cbt.Server
