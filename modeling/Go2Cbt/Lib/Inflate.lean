import Go2Cbt.Lib.Zlib

/-!
# Lib — inflating

The decoder of DEFLATE and of zlib streams, as functions.  A reader takes bits off the front and
does not look at those behind (`Reads`), so what a stream decodes to does not depend on what follows
it.  The functions find what the relations say and nothing else (`inflateBlock_eq_some_iff`,
`Zlib.inflate_eq_some_iff`); in particular a stream decodes to one thing only.
-/

namespace Deflate

/-! ### Readers -/

/-- The function takes some bits off the front, and does not look at the others. -/
def Reads {α : Type} (f : List Bool → Option (α × List Bool)) : Prop :=
  ∀ bits v rest, f bits = some (v, rest) →
    ∃ used, bits = used ++ rest ∧ ∀ rest', f (used ++ rest') = some (v, rest')

theorem Reads.length_le {α : Type} {f : List Bool → Option (α × List Bool)} (hf : Reads f)
    {bits rest : List Bool} {v : α} (h : f bits = some (v, rest)) : rest.length ≤ bits.length := by
  obtain ⟨used, rfl, -⟩ := hf _ _ _ h
  rw [List.length_append]
  exact Nat.le_add_left _ _

/-- What cannot be read off nothing takes a bit at least. -/
theorem Reads.length_lt {α : Type} {f : List Bool → Option (α × List Bool)} (hf : Reads f)
    (hnone : f [] = none) {bits rest : List Bool} {v : α} (h : f bits = some (v, rest)) :
    rest.length < bits.length := by
  obtain ⟨used, rfl, hused⟩ := hf _ _ _ h
  cases used with
  | nil =>
      have hnil := hused []
      rw [List.append_nil, hnone] at hnil
      cases hnil
  | cons b used =>
      rw [List.length_append, List.length_cons]
      omega

theorem reads_some {α : Type} (v : α) : Reads fun bits => some (v, bits) := by
  rintro bits _ _ ⟨⟩
  exact ⟨[], rfl, fun _ => rfl⟩

theorem reads_none {α : Type} : Reads fun _ => (none : Option (α × List Bool)) := by
  rintro _ _ _ ⟨⟩

/-- One reader after another. -/
theorem Reads.bind {α β : Type} {f : List Bool → Option (α × List Bool)} (hf : Reads f)
    {g : α → List Bool → Option (β × List Bool)} (hg : ∀ v, Reads (g v)) :
    Reads fun bits => (f bits).bind fun r => g r.1 r.2 := by
  intro bits v rest h
  obtain ⟨⟨u, mid⟩, hu, hv⟩ := Option.bind_eq_some_iff.mp h
  obtain ⟨used, rfl, hused⟩ := hf _ _ _ hu
  obtain ⟨used', rfl, hused'⟩ := hg u _ _ _ hv
  refine ⟨used ++ used', (List.append_assoc ..).symm, fun rest' => ?_⟩
  dsimp only
  rw [List.append_assoc, hused, Option.bind_some]
  exact hused' rest'

theorem reads_readBits (n : Nat) : Reads (readBits n) := by
  induction n with
  | zero => exact reads_some 0
  | succ n ih =>
      intro bits v rest h
      cases bits with
      | nil => cases h
      | cons b bits =>
          rw [readBits, Option.map_eq_some_iff] at h
          obtain ⟨⟨w, mid⟩, hw, heq⟩ := h
          cases heq
          obtain ⟨used, rfl, hused⟩ := ih _ _ _ hw
          refine ⟨b :: used, rfl, fun rest' => ?_⟩
          rw [List.cons_append, readBits, hused, Option.map_some]

theorem reads_readBytes (n : Nat) : Reads (readBytes n) := by
  induction n with
  | zero => exact reads_some []
  | succ n ih =>
      exact (reads_readBits 8).bind fun b => ih.bind fun data => reads_some (UInt8.ofNat b :: data)

theorem reads_readThrees (n : Nat) : Reads (readThrees n) := by
  induction n with
  | zero => exact reads_some []
  | succ n ih => exact (reads_readBits 3).bind fun v => ih.bind fun vs => reads_some (v :: vs)

theorem reads_readExtra (bases : List (Nat × Nat)) (symbol : Nat) :
    Reads (readExtra bases symbol) := by
  cases hbase : bases[symbol]? with
  | none =>
      intro bits v rest h
      rw [readExtra, hbase] at h
      cases h
  | some base =>
      have heq : readExtra bases symbol
          = fun bits => (readBits base.2 bits).bind fun r => some (base.1 + r.1, r.2) := by
        funext bits
        rw [readExtra, hbase]
        rfl
      rw [heq]
      exact (reads_readBits base.2).bind fun extra => reads_some (base.1 + extra)

theorem reads_symbolFrom (lengths : List Nat) (left len code : Nat) :
    Reads (symbolFrom lengths left len code) := by
  induction left generalizing len code with
  | zero => exact reads_none
  | succ left ih =>
      intro bits v rest h
      cases bits with
      | nil => cases h
      | cons b bits =>
          rw [symbolFrom] at h
          cases hat : symbolAt lengths (len + 1) (2 * code + b.toNat) with
          | some symbol =>
              rw [hat] at h
              cases h
              exact ⟨[b], rfl, fun rest' => by rw [List.singleton_append, symbolFrom, hat]⟩
          | none =>
              rw [hat] at h
              obtain ⟨used, rfl, hused⟩ := ih _ _ _ _ _ h
              exact ⟨b :: used, rfl, fun rest' => by
                rw [List.cons_append, symbolFrom, hat]
                exact hused rest'⟩

theorem reads_readSymbol (lengths : List Nat) : Reads (readSymbol lengths) :=
  reads_symbolFrom lengths 15 0 0

theorem length_readSymbol {lengths : List Nat} {bits rest : List Bool} {symbol : Nat}
    (h : readSymbol lengths bits = some (symbol, rest)) : rest.length < bits.length :=
  (reads_readSymbol lengths).length_lt rfl h

/-! ### The symbols of a block -/

/-- The symbols of a block up to its end. -/
def inflateSymbols (lengths distances : List Nat) :
    (fuel : Nat) → Bytes → List Bool → Option (Bytes × List Bool)
  | 0, _, _ => none
  | fuel + 1, out, bits => do
      let symbol ← readSymbol lengths bits
      if symbol.1 < 256 then
        inflateSymbols lengths distances fuel (out ++ [UInt8.ofNat symbol.1]) symbol.2
      else if symbol.1 = 256 then some (out, symbol.2)
      else do
        let n ← readExtra lengthBase (symbol.1 - 257) symbol.2
        let symbol' ← readSymbol distances n.2
        let distance ← readExtra distanceBase symbol'.1 symbol'.2
        if distance.1 ≤ out.length then
          inflateSymbols lengths distances fuel (copyBack distance.1 n.1 out) distance.2
        else none

theorem symbols_of_inflate {lengths distances : List Nat} {fuel : Nat} {out out' : Bytes}
    {bits rest : List Bool}
    (h : inflateSymbols lengths distances fuel out bits = some (out', rest)) :
    Symbols lengths distances out bits out' rest := by
  induction fuel generalizing out bits with
  | zero => cases h
  | succ fuel ih =>
      obtain ⟨⟨symbol, mid⟩, hsymbol, h⟩ := Option.bind_eq_some_iff.mp h
      dsimp only at h
      split at h
      · next hliteral => exact .literal hsymbol hliteral (ih h)
      · next hother =>
          split at h
          · next hstop =>
              subst hstop
              cases h
              exact .stop hsymbol
          · next hcopy =>
              obtain ⟨⟨n, b₂⟩, hn, h⟩ := Option.bind_eq_some_iff.mp h
              obtain ⟨⟨symbol', b₃⟩, hsymbol', h⟩ := Option.bind_eq_some_iff.mp h
              obtain ⟨⟨distance, b₄⟩, hdistance, h⟩ := Option.bind_eq_some_iff.mp h
              dsimp only at h
              split at h
              · next hwindow =>
                  exact .copy hsymbol (by omega) hn hsymbol' hdistance hwindow (ih h)
              · cases h

/-- **Enough fuel finds the symbols**: each of them takes a bit. -/
theorem Symbols.inflate {lengths distances : List Nat} {out out' : Bytes} {bits rest : List Bool}
    (h : Symbols lengths distances out bits out' rest) {fuel : Nat} (hfuel : bits.length < fuel) :
    inflateSymbols lengths distances fuel out bits = some (out', rest) := by
  induction h generalizing fuel with
  | stop h =>
      obtain ⟨fuel, rfl⟩ := Nat.exists_eq_add_one.mpr (Nat.zero_lt_of_lt hfuel)
      rw [inflateSymbols, h]
      rfl
  | literal h hliteral _ ih =>
      obtain ⟨fuel, rfl⟩ := Nat.exists_eq_add_one.mpr (Nat.zero_lt_of_lt hfuel)
      have hlt := length_readSymbol h
      rw [inflateSymbols, h]
      dsimp only [Option.bind_eq_bind, Option.bind_some]
      rw [if_pos hliteral]
      exact ih (by omega)
  | copy h₁ hcopy h₂ h₃ h₄ hwindow _ ih =>
      obtain ⟨fuel, rfl⟩ := Nat.exists_eq_add_one.mpr (Nat.zero_lt_of_lt hfuel)
      have hlt := length_readSymbol h₁
      have hlt' := length_readSymbol h₃
      have hle := (reads_readExtra _ _).length_le h₂
      have hle' := (reads_readExtra _ _).length_le h₄
      rw [inflateSymbols, h₁]
      dsimp only [Option.bind_eq_bind, Option.bind_some]
      rw [if_neg (by omega), if_neg (by omega), h₂, Option.bind_some, h₃, Option.bind_some, h₄,
        Option.bind_some, if_pos hwindow]
      exact ih (by omega)

/-- The symbols of a block do not depend on what follows them. -/
theorem Symbols.reads {lengths distances : List Nat} {out out' : Bytes} {bits rest : List Bool}
    (h : Symbols lengths distances out bits out' rest) :
    ∃ used, bits = used ++ rest ∧
      ∀ rest', Symbols lengths distances out (used ++ rest') out' rest' := by
  induction h with
  | stop h =>
      obtain ⟨used, rfl, hused⟩ := reads_readSymbol _ _ _ _ h
      exact ⟨used, rfl, fun rest' => .stop (hused rest')⟩
  | literal h hliteral _ ih =>
      obtain ⟨used, rfl, hused⟩ := reads_readSymbol _ _ _ _ h
      obtain ⟨used', rfl, hnext⟩ := ih
      refine ⟨used ++ used', (List.append_assoc ..).symm, fun rest' => ?_⟩
      rw [List.append_assoc]
      exact .literal (hused _) hliteral (hnext rest')
  | copy h₁ hcopy h₂ h₃ h₄ hwindow _ ih =>
      obtain ⟨u₁, rfl, hu₁⟩ := reads_readSymbol _ _ _ _ h₁
      obtain ⟨u₂, rfl, hu₂⟩ := reads_readExtra _ _ _ _ _ h₂
      obtain ⟨u₃, rfl, hu₃⟩ := reads_readSymbol _ _ _ _ h₃
      obtain ⟨u₄, rfl, hu₄⟩ := reads_readExtra _ _ _ _ _ h₄
      obtain ⟨u₅, rfl, hnext⟩ := ih
      refine ⟨u₁ ++ (u₂ ++ (u₃ ++ (u₄ ++ u₅))), by simp only [List.append_assoc],
        fun rest' => ?_⟩
      simp only [List.append_assoc]
      exact .copy (hu₁ _) hcopy (hu₂ _) (hu₃ _) (hu₄ _) hwindow (hnext rest')

/-! ### The code lengths of a dynamic block -/

/-- What a symbol of the code of the lengths stands for, behind these lengths. -/
def readRun (lens : List Nat) (symbol : Nat) (bits : List Bool) : Option (List Nat × List Bool) :=
  if symbol < 16 then some ([symbol], bits)
  else if symbol = 16 then do
    let last ← lens.getLast?
    let n ← readBits 2 bits
    return (List.replicate (3 + n.1) last, n.2)
  else if symbol = 17 then do
    let n ← readBits 3 bits
    return (List.replicate (3 + n.1) 0, n.2)
  else if symbol = 18 then do
    let n ← readBits 7 bits
    return (List.replicate (11 + n.1) 0, n.2)
  else none

/-- The `want` code lengths of a dynamic block. -/
def inflateLengths (code : List Nat) (want : Nat) :
    (fuel : Nat) → List Nat → List Bool → Option (List Nat × List Bool)
  | 0, _, _ => none
  | fuel + 1, lens, bits =>
      if lens.length = want then some (lens, bits)
      else do
        let symbol ← readSymbol code bits
        let run ← readRun lens symbol.1 symbol.2
        inflateLengths code want fuel (lens ++ run.1) run.2

theorem reads_readRun (lens : List Nat) (symbol : Nat) : Reads (readRun lens symbol) := by
  rw [show readRun lens symbol = fun bits => readRun lens symbol bits from rfl]
  by_cases h₁ : symbol < 16
  · simp only [readRun, if_pos h₁]
    exact reads_some [symbol]
  by_cases h₂ : symbol = 16
  · simp only [readRun, if_neg h₁, if_pos h₂]
    cases lens.getLast? with
    | none => exact reads_none
    | some last => exact (reads_readBits 2).bind fun n => reads_some (List.replicate (3 + n) last)
  by_cases h₃ : symbol = 17
  · simp only [readRun, if_neg h₁, if_neg h₂, if_pos h₃]
    exact (reads_readBits 3).bind fun n => reads_some (List.replicate (3 + n) 0)
  by_cases h₄ : symbol = 18
  · simp only [readRun, if_neg h₁, if_neg h₂, if_neg h₃, if_pos h₄]
    exact (reads_readBits 7).bind fun n => reads_some (List.replicate (11 + n) 0)
  · simp only [readRun, if_neg h₁, if_neg h₂, if_neg h₃, if_neg h₄]
    exact reads_none

/-- A symbol stands for one length at least. -/
theorem length_pos_of_readRun {lens more : List Nat} {symbol : Nat} {bits rest : List Bool}
    (h : readRun lens symbol bits = some (more, rest)) : 0 < more.length := by
  rw [readRun] at h
  split at h
  · cases h
    exact Nat.one_pos
  split at h
  · obtain ⟨last, -, h⟩ := Option.bind_eq_some_iff.mp h
    obtain ⟨n, -, h⟩ := Option.bind_eq_some_iff.mp h
    cases h
    rw [List.length_replicate]
    exact Nat.add_pos_left (by decide) _
  split at h
  · obtain ⟨n, -, h⟩ := Option.bind_eq_some_iff.mp h
    cases h
    rw [List.length_replicate]
    exact Nat.add_pos_left (by decide) _
  split at h
  · obtain ⟨n, -, h⟩ := Option.bind_eq_some_iff.mp h
    cases h
    rw [List.length_replicate]
    exact Nat.add_pos_left (by decide) _
  · cases h

/-- **A row of lengths**: it is complete, or a symbol stands for more of them. -/
theorem lengths_iff {code : List Nat} {want : Nat} {lens lens' : List Nat}
    {bits rest : List Bool} :
    Lengths code want lens bits lens' rest ↔
      (lens.length = want ∧ lens' = lens ∧ rest = bits) ∨
      ∃ symbol b₁ more mid, readSymbol code bits = some (symbol, b₁) ∧
        readRun lens symbol b₁ = some (more, mid) ∧
        Lengths code want (lens ++ more) mid lens' rest := by
  constructor
  · intro h
    cases h with
    | done h => exact .inl ⟨h, rfl, rfl⟩
    | one h hlen t =>
        exact .inr ⟨_, _, _, _, h, by rw [readRun, if_pos hlen], t⟩
    | again h h' hlast t =>
        refine .inr ⟨_, _, _, _, h, ?_, t⟩
        rw [readRun, if_neg (by decide), if_pos rfl, hlast, h']
        rfl
    | zeros h h' t =>
        refine .inr ⟨_, _, _, _, h, ?_, t⟩
        rw [readRun, if_neg (by decide), if_neg (by decide), if_pos rfl, h']
        rfl
    | manyZeros h h' t =>
        refine .inr ⟨_, _, _, _, h, ?_, t⟩
        rw [readRun, if_neg (by decide), if_neg (by decide), if_neg (by decide), if_pos rfl, h']
        rfl
  · rintro (⟨hdone, rfl, rfl⟩ | ⟨symbol, b₁, more, mid, h, hrun, t⟩)
    · exact .done hdone
    · rw [readRun] at hrun
      split at hrun
      · next hlen =>
          cases hrun
          exact .one h hlen t
      split at hrun
      · next hagain =>
          subst hagain
          obtain ⟨last, hlast, hrun⟩ := Option.bind_eq_some_iff.mp hrun
          obtain ⟨n, hn, hrun⟩ := Option.bind_eq_some_iff.mp hrun
          cases hrun
          exact .again h hn hlast t
      split at hrun
      · next hzeros =>
          subst hzeros
          obtain ⟨n, hn, hrun⟩ := Option.bind_eq_some_iff.mp hrun
          cases hrun
          exact .zeros h hn t
      split at hrun
      · next hzeros =>
          subst hzeros
          obtain ⟨n, hn, hrun⟩ := Option.bind_eq_some_iff.mp hrun
          cases hrun
          exact .manyZeros h hn t
      · cases hrun

/-- An induction on a row of lengths, by what its symbols stand for. -/
theorem Lengths.induct {code : List Nat} {want : Nat} {lens' : List Nat} {rest : List Bool}
    {P : List Nat → List Bool → Prop} (done : lens'.length = want → P lens' rest)
    (run : ∀ lens bits symbol b₁ more mid, readSymbol code bits = some (symbol, b₁) →
      readRun lens symbol b₁ = some (more, mid) → P (lens ++ more) mid → P lens bits)
    {lens : List Nat} {bits : List Bool} (h : Lengths code want lens bits lens' rest) :
    P lens bits := by
  generalize hn : bits.length = n
  induction n using Nat.strong_induction_on generalizing lens bits with
  | _ n ih =>
      subst hn
      rcases lengths_iff.mp h with
        ⟨hdone, rfl, rfl⟩ | ⟨symbol, b₁, more, mid, hsymbol, hrun, t⟩
      · exact done hdone
      · have hlt := length_readSymbol hsymbol
        have hle := (reads_readRun lens symbol).length_le hrun
        exact run lens bits symbol b₁ more mid hsymbol hrun (ih _ (hle.trans_lt hlt) t rfl)

/-- **Enough fuel finds the lengths.**  There are never too many on the way. -/
theorem Lengths.inflate {code : List Nat} {want : Nat} {lens lens' : List Nat}
    {bits rest : List Bool} (h : Lengths code want lens bits lens' rest) :
    lens.length ≤ want ∧ ∀ fuel, bits.length < fuel →
      inflateLengths code want fuel lens bits = some (lens', rest) := by
  refine h.induct (P := fun lens bits => lens.length ≤ want ∧ ∀ fuel, bits.length < fuel →
    inflateLengths code want fuel lens bits = some (lens', rest)) ?_ ?_
  · intro hdone
    refine ⟨hdone.le, fun fuel hfuel => ?_⟩
    obtain ⟨fuel, rfl⟩ := Nat.exists_eq_add_one.mpr (Nat.zero_lt_of_lt hfuel)
    rw [inflateLengths, if_pos hdone]
  · rintro lens bits symbol b₁ more mid hsymbol hrun ⟨hle, ih⟩
    rw [List.length_append] at hle
    have hmore := length_pos_of_readRun hrun
    refine ⟨by omega, fun fuel hfuel => ?_⟩
    obtain ⟨fuel, rfl⟩ := Nat.exists_eq_add_one.mpr (Nat.zero_lt_of_lt hfuel)
    have hlt := length_readSymbol hsymbol
    have hrest := (reads_readRun lens symbol).length_le hrun
    rw [inflateLengths, if_neg (by omega), hsymbol]
    dsimp only [Option.bind_eq_bind, Option.bind_some]
    rw [hrun, Option.bind_some]
    exact ih fuel (by omega)

/-- The code lengths do not depend on what follows them. -/
theorem Lengths.reads {code : List Nat} {want : Nat} {lens lens' : List Nat}
    {bits rest : List Bool} (h : Lengths code want lens bits lens' rest) :
    ∃ used, bits = used ++ rest ∧
      ∀ rest', Lengths code want lens (used ++ rest') lens' rest' := by
  refine h.induct (P := fun lens bits => ∃ used, bits = used ++ rest ∧
    ∀ rest', Lengths code want lens (used ++ rest') lens' rest') ?_ ?_
  · exact fun hdone => ⟨[], rfl, fun rest' => .done hdone⟩
  · rintro lens bits symbol b₁ more mid hsymbol hrun ⟨u₃, rfl, hnext⟩
    obtain ⟨u₁, rfl, hu₁⟩ := reads_readSymbol _ _ _ _ hsymbol
    obtain ⟨u₂, rfl, hu₂⟩ := reads_readRun _ _ _ _ _ hrun
    refine ⟨u₁ ++ (u₂ ++ u₃), by simp only [List.append_assoc], fun rest' => ?_⟩
    simp only [List.append_assoc]
    exact lengths_iff.mpr (.inr ⟨symbol, _, more, _, hu₁ _, hu₂ _, hnext rest'⟩)

theorem lengths_of_inflate {code : List Nat} {want : Nat} {fuel : Nat} {lens lens' : List Nat}
    {bits rest : List Bool} (h : inflateLengths code want fuel lens bits = some (lens', rest)) :
    Lengths code want lens bits lens' rest := by
  induction fuel generalizing lens bits with
  | zero => cases h
  | succ fuel ih =>
      rw [inflateLengths] at h
      split at h
      · next hdone =>
          cases h
          exact .done hdone
      · obtain ⟨⟨symbol, b₁⟩, hsymbol, h⟩ := Option.bind_eq_some_iff.mp h
        obtain ⟨⟨more, mid⟩, hrun, h⟩ := Option.bind_eq_some_iff.mp h
        exact lengths_iff.mpr (.inr ⟨symbol, b₁, more, mid, hsymbol, hrun, ih h⟩)

/-! ### Blocks -/

/-- A block behind its first bit. -/
def inflateBlock (out : Bytes) : List Bool → Option (Bytes × List Bool)
  | false :: false :: bits => do
      let len ← readBits 16 (align bits)
      let nlen ← readBits 16 len.2
      if len.1 + nlen.1 = 65535 then do
        let data ← readBytes len.1 nlen.2
        return (out ++ data.1, data.2)
      else none
  | true :: false :: bits =>
      inflateSymbols fixedLengths fixedDistances (bits.length + 1) out bits
  | false :: true :: bits => do
      let hlit ← readBits 5 bits
      let hdist ← readBits 5 hlit.2
      let hclen ← readBits 4 hdist.2
      let given ← readThrees (hclen.1 + 4) hclen.2
      let lens ← inflateLengths (lengthCode given.1) (hlit.1 + 257 + (hdist.1 + 1))
        (given.2.length + 1) [] given.2
      inflateSymbols (lens.1.take (hlit.1 + 257)) (lens.1.drop (hlit.1 + 257))
        (lens.2.length + 1) out lens.2
  | _ => none

/-- A row of blocks up to the final one. -/
def inflateBlocks : (fuel : Nat) → Bytes → List Bool → Option (Bytes × List Bool)
  | fuel + 1, out, final :: bits => do
      let r ← inflateBlock out bits
      if final then some r else inflateBlocks fuel r.1 r.2
  | _, _, _ => none

/-- **The function finds the block**, and nothing else. -/
theorem inflateBlock_eq_some_iff {out out' : Bytes} {bits rest : List Bool} :
    inflateBlock out bits = some (out', rest) ↔ Block out bits out' rest := by
  constructor
  · intro h
    rw [inflateBlock.eq_def] at h
    split at h
    · obtain ⟨⟨len, b₁⟩, h₁, h⟩ := Option.bind_eq_some_iff.mp h
      obtain ⟨⟨nlen, b₂⟩, h₂, h⟩ := Option.bind_eq_some_iff.mp h
      dsimp only at h
      split at h
      · next hnlen =>
          obtain ⟨⟨data, b₃⟩, h₃, h⟩ := Option.bind_eq_some_iff.mp h
          cases h
          exact .stored h₁ h₂ hnlen h₃
      · cases h
    · exact .fixed (symbols_of_inflate h)
    · obtain ⟨⟨hlit, b₁⟩, h₁, h⟩ := Option.bind_eq_some_iff.mp h
      obtain ⟨⟨hdist, b₂⟩, h₂, h⟩ := Option.bind_eq_some_iff.mp h
      obtain ⟨⟨hclen, b₃⟩, h₃, h⟩ := Option.bind_eq_some_iff.mp h
      obtain ⟨⟨given, b₄⟩, h₄, h⟩ := Option.bind_eq_some_iff.mp h
      obtain ⟨⟨lens, b₅⟩, h₅, h⟩ := Option.bind_eq_some_iff.mp h
      exact .dynamic h₁ h₂ h₃ h₄ (lengths_of_inflate h₅) (symbols_of_inflate h)
    · cases h
  · intro h
    cases h with
    | stored h₁ h₂ hnlen h₃ =>
        rw [inflateBlock, h₁]
        dsimp only [Option.bind_eq_bind, Option.bind_some]
        rw [h₂, Option.bind_some, if_pos hnlen, h₃]
        rfl
    | fixed h => exact h.inflate (Nat.lt_succ_self _)
    | dynamic h₁ h₂ h₃ h₄ h₅ h₆ =>
        rw [inflateBlock, h₁]
        dsimp only [Option.bind_eq_bind, Option.bind_some]
        rw [h₂, Option.bind_some, h₃, Option.bind_some, h₄, Option.bind_some,
          h₅.inflate.2 _ (Nat.lt_succ_self _), Option.bind_some]
        exact h₆.inflate (Nat.lt_succ_self _)

/-- What lies behind the padding, when as many bits are left of a byte. -/
theorem align_append {bits used rest rest' : List Bool} (h : align bits = used ++ rest)
    (hrest : rest'.length % 8 = rest.length % 8) :
    ∃ pad, bits = pad ++ (used ++ rest) ∧ align (pad ++ (used ++ rest')) = used ++ rest' := by
  have hsplit : bits = bits.take (bits.length % 8) ++ (used ++ rest) := by
    rw [← h, align, List.take_append_drop]
  have hpad : (bits.take (bits.length % 8)).length = bits.length % 8 := by
    rw [List.length_take]
    exact min_eq_left (Nat.mod_le _ _)
  refine ⟨_, hsplit, ?_⟩
  have hlen := congrArg List.length hsplit
  simp only [List.length_append, hpad] at hlen
  have hmod : (bits.take (bits.length % 8) ++ (used ++ rest')).length % 8 = bits.length % 8 := by
    simp only [List.length_append, hpad]
    omega
  rw [align, hmod]
  exact List.drop_left' hpad

/-- **A block does not depend on what follows it**, but for where the bytes begin. -/
theorem Block.reads {out out' : Bytes} {bits rest : List Bool} (h : Block out bits out' rest) :
    ∃ used, bits = used ++ rest ∧
      ∀ rest', rest'.length % 8 = rest.length % 8 → Block out (used ++ rest') out' rest' := by
  cases h with
  | stored h₁ h₂ hnlen h₃ =>
      obtain ⟨u₁, hu, hu₁⟩ := reads_readBits _ _ _ _ h₁
      obtain ⟨u₂, rfl, hu₂⟩ := reads_readBits _ _ _ _ h₂
      obtain ⟨u₃, rfl, hu₃⟩ := reads_readBytes _ _ _ _ h₃
      have hbody := hu.trans (show _ = (u₁ ++ (u₂ ++ u₃)) ++ rest by simp only [List.append_assoc])
      obtain ⟨pad, rfl, -⟩ := align_append hbody rfl
      refine ⟨false :: false :: (pad ++ (u₁ ++ (u₂ ++ u₃))), by simp, fun rest' hrest => ?_⟩
      obtain ⟨pad', heq, halign⟩ := align_append hbody hrest
      obtain rfl : pad = pad' := List.append_cancel_right heq
      have hrow : false :: false :: (pad ++ (u₁ ++ (u₂ ++ u₃))) ++ rest'
          = false :: false :: (pad ++ ((u₁ ++ (u₂ ++ u₃)) ++ rest')) := by simp
      rw [hrow]
      refine .stored ?_ (hu₂ _) hnlen (hu₃ _)
      rw [halign]
      simp only [List.append_assoc]
      exact hu₁ _
  | fixed h =>
      obtain ⟨used, rfl, hused⟩ := h.reads
      exact ⟨true :: false :: used, rfl, fun rest' _ => .fixed (hused rest')⟩
  | dynamic h₁ h₂ h₃ h₄ h₅ h₆ =>
      obtain ⟨u₁, rfl, hu₁⟩ := reads_readBits _ _ _ _ h₁
      obtain ⟨u₂, rfl, hu₂⟩ := reads_readBits _ _ _ _ h₂
      obtain ⟨u₃, rfl, hu₃⟩ := reads_readBits _ _ _ _ h₃
      obtain ⟨u₄, rfl, hu₄⟩ := reads_readThrees _ _ _ _ h₄
      obtain ⟨u₅, rfl, hu₅⟩ := h₅.reads
      obtain ⟨u₆, rfl, hu₆⟩ := h₆.reads
      refine ⟨false :: true :: (u₁ ++ (u₂ ++ (u₃ ++ (u₄ ++ (u₅ ++ u₆))))), by simp,
        fun rest' _ => ?_⟩
      simp only [List.cons_append, List.append_assoc]
      exact .dynamic (hu₁ _) (hu₂ _) (hu₃ _) (hu₄ _) (hu₅ _) (hu₆ _)

/-- **Nor does a row of blocks.** -/
theorem Blocks.reads {out out' : Bytes} {bits rest : List Bool} (h : Blocks out bits out' rest) :
    ∃ used, bits = used ++ rest ∧
      ∀ rest', rest'.length % 8 = rest.length % 8 → Blocks out (used ++ rest') out' rest' := by
  induction h with
  | final h =>
      obtain ⟨used, rfl, hused⟩ := h.reads
      exact ⟨true :: used, rfl, fun rest' hrest => .final (hused rest' hrest)⟩
  | more h _ ih =>
      obtain ⟨used, rfl, hused⟩ := h.reads
      obtain ⟨used', rfl, hnext⟩ := ih
      refine ⟨false :: (used ++ used'), by simp, fun rest' hrest => ?_⟩
      simp only [List.cons_append, List.append_assoc]
      refine .more (hused _ ?_) (hnext rest' hrest)
      simp only [List.length_append]
      omega

theorem blocks_of_inflate {fuel : Nat} {out out' : Bytes} {bits rest : List Bool}
    (h : inflateBlocks fuel out bits = some (out', rest)) : Blocks out bits out' rest := by
  induction fuel generalizing out bits with
  | zero => cases h
  | succ fuel ih =>
      cases bits with
      | nil => cases h
      | cons final bits =>
          obtain ⟨⟨mid, b⟩, hblock, h⟩ := Option.bind_eq_some_iff.mp h
          have hblock := inflateBlock_eq_some_iff.mp hblock
          cases final with
          | true =>
              cases h
              exact .final hblock
          | false => exact .more hblock (ih h)

/-- **Enough fuel finds the blocks**: each of them takes a bit. -/
theorem Blocks.inflate {out out' : Bytes} {bits rest : List Bool} (h : Blocks out bits out' rest)
    {fuel : Nat} (hfuel : bits.length ≤ fuel) :
    inflateBlocks fuel out bits = some (out', rest) := by
  induction h generalizing fuel with
  | final h =>
      obtain ⟨fuel, rfl⟩ := Nat.exists_eq_add_one.mpr (Nat.lt_of_lt_of_le (Nat.succ_pos _) hfuel)
      rw [inflateBlocks, inflateBlock_eq_some_iff.mpr h]
      rfl
  | more h _ ih =>
      obtain ⟨fuel, rfl⟩ := Nat.exists_eq_add_one.mpr (Nat.lt_of_lt_of_le (Nat.succ_pos _) hfuel)
      obtain ⟨used, rfl, -⟩ := h.reads
      rw [List.length_cons, List.length_append] at hfuel
      rw [inflateBlocks, inflateBlock_eq_some_iff.mpr h]
      exact ih (by omega)

end Deflate

namespace Zlib

open Deflate

/-- The stream at the front of some bytes: what it decodes to, if the checksum is right. -/
def inflate : Bytes → Option Bytes
  | cmf :: flg :: src =>
      if Header cmf flg then do
        let r ← inflateBlocks (8 * src.length) [] (bitsOf src)
        if (src.drop (src.length - r.2.length / 8)).take 4 = bigEndian (adler32 r.1) then some r.1
        else none
      else none
  | _ => none

/-- The whole bytes at the end of the bits. -/
theorem bitsOf_split {src : Bytes} {used bits : List Bool} (h : bitsOf src = used ++ bits) :
    bitsOf (src.take (src.length - bits.length / 8)) = used ++ bits.take (bits.length % 8) ∧
      bitsOf (src.drop (src.length - bits.length / 8)) = bits.drop (bits.length % 8) := by
  have hlen := congrArg List.length h
  rw [length_bitsOf, List.length_append] at hlen
  have hsplit : bitsOf (src.take (src.length - bits.length / 8))
      ++ bitsOf (src.drop (src.length - bits.length / 8))
        = (used ++ bits.take (bits.length % 8)) ++ bits.drop (bits.length % 8) := by
    rw [← bitsOf_append, List.take_append_drop, h, List.append_assoc, List.take_append_drop]
  refine List.append_inj hsplit ?_
  rw [length_bitsOf, List.length_append, List.length_take, List.length_take]
  omega

/-- **What the function finds is a stream at the front of the bytes**, and it finds every one. -/
theorem inflate_eq_some_iff {src data : Bytes} :
    inflate src = some data ↔ ∃ stream rest, src = stream ++ rest ∧ Stream stream data := by
  constructor
  · intro h
    rw [inflate.eq_def] at h
    split at h
    case h_2 => cases h
    case h_1 cmf flg src =>
      split at h
      case isFalse => cases h
      case isTrue hheader =>
        obtain ⟨⟨found, bits⟩, hblocks, h⟩ := Option.bind_eq_some_iff.mp h
        dsimp only at h
        split at h
        case isFalse => cases h
        case isTrue hadler =>
          cases h
          obtain ⟨used, hused, hreads⟩ := (blocks_of_inflate hblocks).reads
          have hbody := hreads (bits.take (bits.length % 8)) (by
            rw [List.length_take]
            omega)
          rw [← (bitsOf_split hused).1] at hbody
          refine ⟨cmf :: flg :: (src.take (src.length - bits.length / 8)
            ++ bigEndian (adler32 data)), (src.drop (src.length - bits.length / 8)).drop 4, ?_,
            cmf, flg, _, rfl, hheader, _, hbody, ?_⟩
          · rw [List.cons_append, List.cons_append, List.append_assoc, ← hadler,
              List.take_append_drop, List.take_append_drop]
          · rw [List.length_take]
            omega
  · rintro ⟨stream, rest, rfl, cmf, flg, body, rfl, hheader, bits, hblocks, hbits⟩
    -- the blocks are read the same with the checksum and the rest behind them
    obtain ⟨used, hused, hreads⟩ := hblocks.reads
    have hall := hreads (bits ++ bitsOf (bigEndian (adler32 data) ++ rest)) (by
      rw [List.length_append, length_bitsOf]
      omega)
    rw [← List.append_assoc, ← hused, ← bitsOf_append] at hall
    have hread := hall.inflate (length_bitsOf (body ++ (bigEndian (adler32 data) ++ rest))).le
    have hwhole : (body ++ (bigEndian (adler32 data) ++ rest)).length
        - (bits ++ bitsOf (bigEndian (adler32 data) ++ rest)).length / 8 = body.length := by
      simp only [List.length_append, length_bitsOf]
      omega
    rw [List.cons_append, List.cons_append, List.append_assoc, inflate, if_pos hheader, hread]
    dsimp only [Option.bind_eq_bind, Option.bind_some]
    rw [hwhole, List.drop_left, List.take_left' (length_bigEndian _), if_pos rfl]

/-- Bytes behind a stream do not matter. -/
theorem Stream.inflate {stream data : Bytes} (h : Stream stream data) (rest : Bytes) :
    inflate (stream ++ rest) = some data :=
  inflate_eq_some_iff.mpr ⟨stream, rest, rfl, h⟩

end Zlib
