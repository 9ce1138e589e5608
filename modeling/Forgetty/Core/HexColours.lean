import Mathlib.Data.List.Forall2
import Mathlib.Tactic.Common
import Forgetty.Core.Rgba

/-! Which texts a colour is read from. The bytes behind the `#` are taken by twos: each of them is a
pair of characters that the number parser takes or not, or it ends inside a character. -/

namespace Forgetty.Core

open String (utf8Len)

/-! ### Channels -/

/-- The two bytes that a channel is read from, and the rest. -/
def takePair (text : Text) : Reads (UInt8 × Text) :=
  match splitBytes 2 text with
  | none => .error .panicked
  | some (pair, rest) => (u8FromHex pair).map (·, rest)

/-- As many channels as there are pairs. -/
def readPairs : ℕ → Text → Reads (List UInt8)
  | 0, _ => .ok []
  | n + 1, text => do
    let (v, rest) ← takePair text
    let vs ← readPairs n rest
    .ok (v :: vs)

theorem takePair_ok {text rest : Text} {v : UInt8} (h : takePair text = .ok (v, rest)) :
    ∃ pair, text = pair ++ rest ∧ utf8Len pair = 2 ∧ u8FromHex pair = .ok v := by
  unfold takePair at h
  split at h
  · cases h
  · rename_i pair tail hsplit
    obtain ⟨htext, hlen⟩ := splitBytes_eq_some_iff.mp hsplit
    cases hv : u8FromHex pair with
    | error e =>
      rw [hv] at h
      cases h
    | ok v' =>
      rw [hv] at h
      cases h
      exact ⟨pair, htext, hlen, hv⟩

/-- The colour of three or four channels. -/
def Rgba.ofChannels (vs : List UInt8) : Rgba :=
  ⟨vs.getD 0 0, vs.getD 1 0, vs.getD 2 0, vs.getD 3 255⟩

theorem map_readPairs_succ {β : Type} (n : ℕ) (text : Text) (f : List UInt8 → β) :
    (readPairs (n + 1) text).map f =
      takePair text >>= fun vr => (readPairs n vr.2).map fun vs => f (vr.1 :: vs) := by
  rw [readPairs]
  rcases takePair text with e | ⟨v, rest⟩
  · rfl
  · show (readPairs n rest >>= _).map f = (readPairs n rest).map _
    cases readPairs n rest <;> rfl

/-- A slice that is read as a channel, and what is read behind it. -/
theorem bind_slice_eq {text before rest : Text} {i j : ℕ} (htext : text = before ++ rest)
    (h : utf8Len before = i) (hj : j = i + 2) {β : Type} {k : UInt8 → Reads β}
    {next : UInt8 × Text → Reads β}
    (hk : ∀ v pair tail, rest = pair ++ tail → utf8Len (before ++ pair) = j → k v = next (v, tail)) :
    (readSlice i j text >>= fun s => u8FromHex s >>= k) = takePair rest >>= next := by
  rw [htext, readSlice, sliceBytes_append (by omega) h, hj, Nat.add_sub_cancel_left, takePair]
  rcases hsplit : splitBytes 2 rest with _ | ⟨pair, tail⟩
  · rfl
  · obtain ⟨hrest, hlen⟩ := splitBytes_eq_some_iff.mp hsplit
    have hnext := fun v => hk v pair tail hrest (by rw [String.utf8Len_append, h, hlen, hj])
    show u8FromHex pair >>= k = (u8FromHex pair).map _ >>= next
    rcases u8FromHex pair with e | v
    · rfl
    · exact hnext v

theorem fromHex_six {s : Text} (h : utf8Len s = 6) :
    Rgba.fromHex ('#' :: s) = (readPairs 3 s).map Rgba.ofChannels := by
  simp only [Rgba.fromHex, h, if_true]
  rw [map_readPairs_succ]
  refine @bind_slice_eq s [] s 0 2 rfl rfl rfl _ _ _ fun r p₁ s₁ h₁ hp₁ => ?_
  rw [map_readPairs_succ]
  refine bind_slice_eq h₁ hp₁ rfl fun g p₂ s₂ h₂ hp₂ => ?_
  rw [map_readPairs_succ]
  have htext : s = (p₁ ++ p₂) ++ s₂ := by rw [h₁, h₂, List.append_assoc]
  exact bind_slice_eq htext hp₂ rfl fun b p₃ s₃ h₃ hp₃ => rfl

theorem fromHex_eight {s : Text} (h : utf8Len s = 8) :
    Rgba.fromHex ('#' :: s) = (readPairs 4 s).map Rgba.ofChannels := by
  simp only [Rgba.fromHex, h, if_true]
  rw [map_readPairs_succ]
  refine @bind_slice_eq s [] s 0 2 rfl rfl rfl _ _ _ fun r p₁ s₁ h₁ hp₁ => ?_
  rw [map_readPairs_succ]
  refine bind_slice_eq h₁ hp₁ rfl fun g p₂ s₂ h₂ hp₂ => ?_
  rw [map_readPairs_succ]
  have htext : s = (p₁ ++ p₂) ++ s₂ := by rw [h₁, h₂, List.append_assoc]
  refine bind_slice_eq htext hp₂ rfl fun b p₃ s₃ h₃ hp₃ => ?_
  rw [map_readPairs_succ]
  have htext' : s = ((p₁ ++ p₂) ++ p₃) ++ s₃ := by
    rw [htext, h₃, List.append_assoc (p₁ ++ p₂)]
  exact bind_slice_eq htext' hp₃ rfl fun a p₄ s₄ h₄ hp₄ => rfl

/-! ### Pairs of digits -/

theorem utf8Size_of_hexDigit {c : Char} (h : (hexDigit c).isSome) : c.utf8Size = 1 := by
  rw [Char.utf8Size_eq_one_iff, UInt32.le_iff_toNat_le]
  unfold hexDigit at h
  have hle {a b : Char} (hc : a ≤ c ∧ c ≤ b) : c.val.toNat ≤ b.val.toNat :=
    UInt32.le_iff_toNat_le.mp hc.2
  split_ifs at h with h₁ h₂ h₃
  · exact Nat.le_trans (hle h₁) (by decide)
  · exact Nat.le_trans (hle h₂) (by decide)
  · exact Nat.le_trans (hle h₃) (by decide)
  · cases h

theorem hexDigit_lt {c : Char} {d : ℕ} (h : hexDigit c = some d) : d < 16 := by
  have hsub {a b : Char} (hc : a ≤ c ∧ c ≤ b) : a.toNat ≤ c.toNat ∧ c.toNat ≤ b.toNat :=
    ⟨UInt32.le_iff_toNat_le.mp hc.1, UInt32.le_iff_toNat_le.mp hc.2⟩
  unfold hexDigit at h
  split_ifs at h with h₁ h₂ h₃
  · obtain ⟨hlo, hhi⟩ := hsub h₁
    obtain rfl := Option.some.inj h
    have : '9'.toNat = '0'.toNat + 9 := rfl
    omega
  · obtain ⟨hlo, hhi⟩ := hsub h₂
    obtain rfl := Option.some.inj h
    have : 'f'.toNat = 'a'.toNat + 5 := rfl
    omega
  · obtain ⟨hlo, hhi⟩ := hsub h₃
    obtain rfl := Option.some.inj h
    have : 'F'.toNat = 'A'.toNat + 5 := rfl
    omega

theorem hexDigit_plus : hexDigit '+' = none := by decide

/-- The byte that two hexadecimal digits spell. -/
def hexByte (x y : Char) : Option UInt8 :=
  (hexDigit x).bind fun hi => (hexDigit y).map fun lo => UInt8.ofNat (hi * 16 + lo)

/-- Two characters that the number parser takes: digits, or a digit with its sign. -/
def pairValue (x y : Char) : Option UInt8 :=
  if x = '+' then (hexDigit y).map UInt8.ofNat else hexByte x y

theorem u8FromHex_pair (x y : Char) :
    u8FromHex [x, y] = match pairValue x y with
      | some v => .ok v
      | none => .error .invalid := by
  have hlo {d : ℕ} (hd : hexDigit y = some d) : d < 256 := by
    have := hexDigit_lt hd
    omega
  by_cases hx : x = '+'
  · subst hx
    rcases hy : hexDigit y with _ | d
    · simp [u8FromHex, pairValue, pushHexDigit, hy]
    · simp [u8FromHex, pairValue, pushHexDigit, hy, hlo hy]
  · rcases hx' : hexDigit x with _ | c
    · simp [u8FromHex, pairValue, hexByte, pushHexDigit, hx, hx']
    · have hc := hexDigit_lt hx'
      have hc' : c < 256 := by omega
      rcases hy : hexDigit y with _ | d
      · simp [u8FromHex, pairValue, hexByte, pushHexDigit, hx, hx', hc', hy]
      · have hd := hexDigit_lt hy
        have hsum : c * 16 + d < 256 := by omega
        simp [u8FromHex, pairValue, hexByte, pushHexDigit, hx, hx', hc', hy, hsum]

/-- Of two bytes that are one character no channel is read. -/
theorem u8FromHex_singleton {c : Char} (h : c.utf8Size = 2) : u8FromHex [c] = .error .invalid := by
  have hc : hexDigit c = none := by
    refine Option.eq_none_iff_forall_ne_some.mpr fun d hd => ?_
    have := utf8Size_of_hexDigit (c := c) (by rw [hd]; rfl)
    omega
  simp [u8FromHex, pushHexDigit, hc]

/-- A hexadecimal digit with another one or a sign in front of it. -/
def IsPair (p : Text) : Prop :=
  ∃ x y, p = [x, y] ∧ (x = '+' ∨ (hexDigit x).isSome) ∧ (hexDigit y).isSome

/-- Behind some pairs, two bytes more would end inside a character. -/
def Straddles (text : Text) : Prop :=
  ∃ pairs rest, text = List.flatten pairs ++ rest ∧ (∀ p ∈ pairs, IsPair p) ∧
    ((∃ c cs, rest = c :: cs ∧ 2 < c.utf8Size) ∨
      ∃ c d cs, rest = c :: d :: cs ∧ c.utf8Size = 1 ∧ 1 < d.utf8Size)

theorem pairValue_isSome_iff {x y : Char} :
    (pairValue x y).isSome ↔ (x = '+' ∨ (hexDigit x).isSome) ∧ (hexDigit y).isSome := by
  unfold pairValue hexByte
  split_ifs with hx
  · simp [hx]
  · cases hexDigit x <;> simp [hx]

theorem IsPair.utf8Len {p : Text} (h : IsPair p) : utf8Len p = 2 := by
  obtain ⟨x, y, rfl, hx, hy⟩ := h
  have hx' : x.utf8Size = 1 := by
    rcases hx with rfl | hx
    · rfl
    · exact utf8Size_of_hexDigit hx
  simp [hx', utf8Size_of_hexDigit hy]

theorem not_straddles_nil : ¬Straddles [] := by
  rintro ⟨pairs, rest, htext, -, hrest⟩
  obtain ⟨-, rfl⟩ := List.append_eq_nil_iff.mp htext.symm
  rcases hrest with ⟨c, cs, h, -⟩ | ⟨c, d, cs, h, -⟩ <;> cases h

/-- Two bytes at the front that are whole characters and no pair hide what is behind them. -/
theorem straddles_append_iff {p rest : Text} (hp : String.utf8Len p = 2) :
    Straddles (p ++ rest) ↔ IsPair p ∧ Straddles rest := by
  constructor
  · rintro ⟨pairs, tail, htext, hpairs, htail⟩
    cases pairs with
    | nil =>
      -- the character that is cut would be in front
      rw [List.flatten_nil, List.nil_append] at htext
      rcases p with _ | ⟨c', _ | ⟨d', ps⟩⟩
      · cases hp
      · rcases htail with ⟨c, cs, rfl, hc⟩ | ⟨c, d, cs, rfl, hc, hd⟩ <;>
          obtain ⟨rfl, -⟩ := List.cons_eq_cons.mp htext <;>
          simp only [String.utf8Len_cons, String.utf8Len_nil] at hp <;> omega
      · rcases htail with ⟨c, cs, rfl, hc⟩ | ⟨c, d, cs, rfl, hc, hd⟩
        · obtain ⟨rfl, -⟩ := List.cons_eq_cons.mp htext
          simp only [String.utf8Len_cons] at hp
          omega
        · simp only [List.cons_append, List.cons.injEq] at htext
          obtain ⟨rfl, rfl, -⟩ := htext
          simp only [String.utf8Len_cons] at hp
          omega
    | cons q qs =>
      rw [List.forall_mem_cons] at hpairs
      rw [List.flatten_cons, List.append_assoc] at htext
      have hsplit := splitBytes_eq_some_iff.mpr ⟨htext, hpairs.1.utf8Len⟩
      rw [splitBytes_eq_some_iff.mpr ⟨rfl, hp⟩] at hsplit
      obtain ⟨rfl, rfl⟩ := Prod.mk.inj (Option.some.inj hsplit)
      exact ⟨hpairs.1, qs, tail, rfl, hpairs.2, htail⟩
  · rintro ⟨hpair, pairs, tail, rfl, hpairs, htail⟩
    exact ⟨p :: pairs, tail, by simp, by simpa using ⟨hpair, hpairs⟩, htail⟩

theorem splitBytes_two_eq_none_iff {text : Text} (h : 2 ≤ String.utf8Len text) :
    splitBytes 2 text = none ↔ (∃ c cs, text = c :: cs ∧ 2 < c.utf8Size) ∨
      ∃ c d cs, text = c :: d :: cs ∧ c.utf8Size = 1 ∧ 1 < d.utf8Size := by
  rcases text with _ | ⟨c, _ | ⟨d, cs⟩⟩
  · simp at h
  · rw [splitBytes]
    split_ifs with hc
    · exact iff_of_true rfl (.inl ⟨c, [], rfl, hc⟩)
    · have hc' : c.utf8Size = 2 := by
        simp only [String.utf8Len_cons, String.utf8Len_nil] at h
        omega
      rw [hc']
      refine iff_of_false (fun hnone => by cases hnone) ?_
      rintro (⟨c', cs', hcs, hlt⟩ | ⟨c', d', cs', hcs, -⟩)
      · cases hcs
        omega
      · cases hcs
  · have hpos := c.utf8Size_pos
    rw [splitBytes]
    split_ifs with hc
    · exact iff_of_true rfl (.inl ⟨c, d :: cs, rfl, hc⟩)
    · by_cases hc' : c.utf8Size = 1
      · rw [hc', splitBytes]
        split_ifs with hd
        · exact iff_of_true rfl (.inr ⟨c, d, cs, rfl, hc', hd⟩)
        · have hd' : d.utf8Size = 1 := by
            have := d.utf8Size_pos
            omega
          rw [hd']
          refine iff_of_false (by simp [splitBytes]) ?_
          rintro (⟨c', cs', hcs, hlt⟩ | ⟨c', d', cs', hcs, -, hlt⟩) <;> cases hcs <;> omega
      · have hc'' : c.utf8Size = 2 := by omega
        rw [hc'']
        refine iff_of_false (fun hnone => by cases hnone) ?_
        rintro (⟨c', cs', hcs, hlt⟩ | ⟨c', d', cs', hcs, hone, -⟩) <;> cases hcs <;> omega

/-- What the number parser makes of the pairs. -/
def PairReads (p : Text) (v : UInt8) : Prop := ∃ x y, p = [x, y] ∧ pairValue x y = some v

theorem isPair_iff {p : Text} : IsPair p ↔ ∃ v, PairReads p v := by
  constructor
  · rintro ⟨x, y, rfl, h⟩
    obtain ⟨v, hv⟩ := Option.isSome_iff_exists.mp (pairValue_isSome_iff.mpr h)
    exact ⟨v, x, y, rfl, hv⟩
  · rintro ⟨v, x, y, rfl, hv⟩
    exact ⟨x, y, rfl, pairValue_isSome_iff.mp (by rw [hv]; rfl)⟩

theorem forall_isPair_iff {pairs : List Text} :
    (∀ p ∈ pairs, IsPair p) ↔ ∃ vs, List.Forall₂ PairReads pairs vs := by
  induction pairs with
  | nil => exact iff_of_true (by simp) ⟨[], .nil⟩
  | cons p ps ih =>
    rw [List.forall_mem_cons, ih, isPair_iff]
    constructor
    · rintro ⟨⟨v, hv⟩, vs, hvs⟩
      exact ⟨v :: vs, .cons hv hvs⟩
    · rintro ⟨vs, h⟩
      cases h with
      | @cons _ v _ vs hv hvs => exact ⟨⟨v, hv⟩, vs, hvs⟩

theorem takePair_append {p rest : Text} (hp : String.utf8Len p = 2) :
    takePair (p ++ rest) = (u8FromHex p).map (·, rest) := by
  rw [takePair, splitBytes_eq_some_iff.mpr ⟨rfl, hp⟩]

/-- A pair of bytes is read, or it is an error. -/
theorem u8FromHex_of_utf8Len {p : Text} (hp : String.utf8Len p = 2) :
    (∃ v, u8FromHex p = .ok v ∧ PairReads p v) ∨ u8FromHex p = .error .invalid ∧ ¬IsPair p := by
  rcases p with _ | ⟨c, _ | ⟨d, _ | ⟨e, cs⟩⟩⟩
  · cases hp
  · refine .inr ⟨u8FromHex_singleton (by simpa using hp), ?_⟩
    rintro ⟨x, y, h, -⟩
    cases h
  · rw [u8FromHex_pair]
    cases hv : pairValue c d with
    | none =>
      refine .inr ⟨rfl, fun hpair => ?_⟩
      obtain ⟨v, x, y, h, hv'⟩ := isPair_iff.mp hpair
      cases h
      rw [hv] at hv'
      cases hv'
    | some v => exact .inl ⟨v, rfl, c, d, rfl, hv⟩
  · have := c.utf8Size_pos
    have := d.utf8Size_pos
    have := e.utf8Size_pos
    simp only [String.utf8Len_cons] at hp
    omega

theorem u8FromHex_eq_ok_iff {p : Text} (hp : String.utf8Len p = 2) {v : UInt8} :
    u8FromHex p = .ok v ↔ PairReads p v := by
  constructor
  · intro h
    rcases u8FromHex_of_utf8Len hp with ⟨v', hv', hread⟩ | ⟨hinv, -⟩
    · rw [h] at hv'
      cases hv'
      exact hread
    · rw [h] at hinv
      cases hinv
  · rintro ⟨x, y, rfl, hv⟩
    rw [u8FromHex_pair, hv]

theorem readPairs_panicked_iff {n : ℕ} {text : Text} (h : String.utf8Len text = 2 * n) :
    readPairs n text = .error .panicked ↔ Straddles text := by
  induction n generalizing text with
  | zero =>
    obtain rfl := String.utf8Len_eq_zero.mp h
    exact ⟨fun h => (by cases h), fun h => absurd h not_straddles_nil⟩
  | succ n ih =>
    rw [readPairs]
    rcases hsplit : splitBytes 2 text with _ | ⟨p, rest⟩
    · have hstart := (splitBytes_two_eq_none_iff (by omega)).mp hsplit
      refine iff_of_true ?_ ⟨[], text, rfl, by simp, hstart⟩
      rw [takePair, hsplit]
      rfl
    · obtain ⟨rfl, hp⟩ := splitBytes_eq_some_iff.mp hsplit
      rw [String.utf8Len_append] at h
      rw [straddles_append_iff hp, takePair_append hp, ← @ih rest (by omega)]
      rcases u8FromHex_of_utf8Len hp with ⟨v, hv, hread⟩ | ⟨hinv, hno⟩
      · rw [hv, and_iff_right (isPair_iff.mpr ⟨v, hread⟩)]
        show (readPairs n rest >>= _) = _ ↔ _
        cases readPairs n rest <;> simp [bind, Except.bind]
      · rw [hinv]
        exact ⟨fun h => (by cases h), fun h => absurd h.1 hno⟩

theorem readPairs_eq_ok_iff {n : ℕ} {text : Text} (h : String.utf8Len text = 2 * n)
    {vs : List UInt8} :
    readPairs n text = .ok vs ↔
      ∃ pairs, text = List.flatten pairs ∧ List.Forall₂ PairReads pairs vs := by
  induction n generalizing text vs with
  | zero =>
    obtain rfl := String.utf8Len_eq_zero.mp h
    constructor
    · intro hok
      cases hok
      exact ⟨[], rfl, .nil⟩
    · rintro ⟨pairs, htext, hread⟩
      cases hread with
      | nil => rfl
      | cons hp _ =>
        obtain ⟨x, y, rfl, -⟩ := hp
        cases htext
  | succ n ih =>
    constructor
    · intro hok
      rw [readPairs] at hok
      rcases htake : takePair text with e | ⟨v, rest⟩
      · rw [htake] at hok
        cases hok
      rw [htake] at hok
      obtain ⟨p, rfl, hp, hv⟩ := takePair_ok htake
      rw [String.utf8Len_append] at h
      rcases hrest : readPairs n rest with e | vs'
      · simp only [bind, Except.bind, hrest] at hok
        cases hok
      · simp only [bind, Except.bind, hrest] at hok
        cases hok
        obtain ⟨pairs, rfl, hpairs⟩ := (ih (by omega)).mp hrest
        exact ⟨p :: pairs, rfl, .cons ((u8FromHex_eq_ok_iff hp).mp hv) hpairs⟩
    · rintro ⟨pairs, rfl, hread⟩
      cases hread with
      | nil => cases h
      | @cons p v pairs vs' hp hpairs =>
        have hlen := (isPair_iff.mpr ⟨v, hp⟩).utf8Len
        rw [List.flatten_cons, String.utf8Len_append] at h
        have hrest : readPairs n pairs.flatten = .ok vs' := (ih (by omega)).mpr ⟨pairs, rfl, hpairs⟩
        rw [readPairs, List.flatten_cons, takePair_append hlen, (u8FromHex_eq_ok_iff hlen).mpr hp]
        simp only [Except.map, bind, Except.bind, hrest]

/-! ### Colours that are spelled out -/

/-- A `#` and six or eight hexadecimal digits, with the colour that they spell. -/
inductive Spells : Text → Rgba → Prop where
  | rgb {r₁ r₂ g₁ g₂ b₁ b₂ : Char} {r g b : UInt8} :
      hexByte r₁ r₂ = some r → hexByte g₁ g₂ = some g → hexByte b₁ b₂ = some b →
      Spells ['#', r₁, r₂, g₁, g₂, b₁, b₂] ⟨r, g, b, 255⟩
  | rgba {r₁ r₂ g₁ g₂ b₁ b₂ a₁ a₂ : Char} {r g b a : UInt8} :
      hexByte r₁ r₂ = some r → hexByte g₁ g₂ = some g → hexByte b₁ b₂ = some b →
      hexByte a₁ a₂ = some a → Spells ['#', r₁, r₂, g₁, g₂, b₁, b₂, a₁, a₂] ⟨r, g, b, a⟩

theorem pairValue_of_hexByte {x y : Char} {v : UInt8} (h : hexByte x y = some v) :
    pairValue x y = some v := by
  rw [pairValue, if_neg, h]
  rintro rfl
  rw [hexByte, hexDigit_plus] at h
  cases h

theorem not_plus_of_hexByte {x y : Char} {v : UInt8} (h : hexByte x y = some v) :
    x ≠ '+' ∧ y ≠ '+' := by
  constructor
  · rintro rfl
    rw [hexByte, hexDigit_plus] at h
    cases h
  · rintro rfl
    cases hx : hexDigit x <;> simp [hexByte, hexDigit_plus, hx] at h

theorem hexByte_of_pairReads {p : Text} {v : UInt8} (h : PairReads p v) (hp : '+' ∉ p) :
    ∃ x y, p = [x, y] ∧ hexByte x y = some v := by
  obtain ⟨x, y, rfl, hv⟩ := h
  rw [pairValue, if_neg fun hx => hp (by simp [hx])] at hv
  exact ⟨x, y, rfl, hv⟩

/-- Pairs of digits and signs. -/
def Signed (text : Text) : Prop :=
  ∃ pairs, text = List.flatten pairs ∧ (∀ p ∈ pairs, IsPair p) ∧ '+' ∈ text

theorem fromHex_cons {t : Text} {n : ℕ} (hlen : String.utf8Len t = 2 * n) (hn : n = 3 ∨ n = 4) :
    Rgba.fromHex ('#' :: t) = (readPairs n t).map Rgba.ofChannels := by
  rcases hn with rfl | rfl
  · exact fromHex_six hlen
  · exact fromHex_eight hlen

theorem utf8Len_flatten {pairs : List Text} {vs : List UInt8}
    (h : List.Forall₂ PairReads pairs vs) : String.utf8Len pairs.flatten = 2 * pairs.length := by
  induction h with
  | nil => rfl
  | @cons p v pairs vs hp _ ih =>
    rw [List.flatten_cons, String.utf8Len_append, ih, (isPair_iff.mpr ⟨v, hp⟩).utf8Len,
      List.length_cons]
    omega

/-- Without six or eight bytes behind a `#` there is no colour. -/
theorem fromHex_of_no_length {s : Text}
    (h : ∀ t n, s = '#' :: t → n = 3 ∨ n = 4 → String.utf8Len t ≠ 2 * n) :
    Rgba.fromHex s = .error .invalid := by
  unfold Rgba.fromHex
  split
  · rename_i t
    rw [if_neg (h t 3 rfl (.inl rfl)), if_neg (h t 4 rfl (.inr rfl))]
  · rfl

theorem fromHex_cases (s : Text) :
    (∃ t n, s = '#' :: t ∧ (n = 3 ∨ n = 4) ∧ String.utf8Len t = 2 * n) ∨
      Rgba.fromHex s = .error .invalid := by
  by_cases h : ∃ t n, s = '#' :: t ∧ (n = 3 ∨ n = 4) ∧ String.utf8Len t = 2 * n
  · exact .inl h
  · exact .inr (fromHex_of_no_length fun t n ht hn hlen => h ⟨t, n, ht, hn, hlen⟩)

/-- Reading a colour panics exactly at a character that is cut in two. -/
theorem fromHex_panicked_iff {s : Text} :
    Rgba.fromHex s = .error .panicked ↔
      ∃ t, s = '#' :: t ∧ (String.utf8Len t = 6 ∨ String.utf8Len t = 8) ∧ Straddles t := by
  have hmap {n : ℕ} {t : Text} (hlen : String.utf8Len t = 2 * n) (hn : n = 3 ∨ n = 4) :
      Rgba.fromHex ('#' :: t) = .error .panicked ↔ Straddles t := by
    rw [fromHex_cons hlen hn, ← readPairs_panicked_iff hlen]
    cases readPairs n t <;> simp [Except.map]
  constructor
  · intro h
    rcases fromHex_cases s with ⟨t, n, rfl, hn, hlen⟩ | hinv
    · exact ⟨t, rfl, by omega, (hmap hlen hn).mp h⟩
    · rw [hinv] at h
      cases h
  · rintro ⟨t, rfl, hlen | hlen, hstraddles⟩
    · exact (@hmap 3 t hlen (.inl rfl)).mpr hstraddles
    · exact (@hmap 4 t hlen (.inr rfl)).mpr hstraddles

/-- The texts that colours are read from, right or wrong. -/
theorem fromHex_eq_ok_iff {s : Text} {c : Rgba} :
    Rgba.fromHex s = .ok c ↔ ∃ pairs vs, s = '#' :: List.flatten pairs ∧
      (pairs.length = 3 ∨ pairs.length = 4) ∧ List.Forall₂ PairReads pairs vs ∧
      Rgba.ofChannels vs = c := by
  constructor
  · intro h
    rcases fromHex_cases s with ⟨t, n, rfl, hn, hlen⟩ | hinv
    · rw [fromHex_cons hlen hn] at h
      rcases hvs : readPairs n t with e | vs
      · rw [hvs] at h
        cases h
      · rw [hvs] at h
        cases h
        obtain ⟨pairs, rfl, hpairs⟩ := (readPairs_eq_ok_iff hlen).mp hvs
        have hlen' := utf8Len_flatten hpairs
        exact ⟨pairs, vs, rfl, by omega, hpairs, rfl⟩
    · rw [hinv] at h
      cases h
  · rintro ⟨pairs, vs, rfl, hn, hpairs, rfl⟩
    have hlen := utf8Len_flatten hpairs
    rw [fromHex_cons hlen hn, (readPairs_eq_ok_iff hlen).mpr ⟨pairs, rfl, hpairs⟩]
    rfl

theorem fromHex_of_spells {s : Text} {c : Rgba} (h : Spells s c) :
    Rgba.fromHex s = .ok c ∧ '+' ∉ s := by
  have hread {x y : Char} {v : UInt8} (hv : hexByte x y = some v) : PairReads [x, y] v :=
    ⟨x, y, rfl, pairValue_of_hexByte hv⟩
  rw [fromHex_eq_ok_iff]
  cases h with
  | @rgb r₁ r₂ g₁ g₂ b₁ b₂ r g b hr hg hb =>
    refine ⟨⟨[[r₁, r₂], [g₁, g₂], [b₁, b₂]], [r, g, b], rfl, .inl rfl,
      .cons (hread hr) (.cons (hread hg) (.cons (hread hb) .nil)), rfl⟩, ?_⟩
    have h₁ := not_plus_of_hexByte hr
    have h₂ := not_plus_of_hexByte hg
    have h₃ := not_plus_of_hexByte hb
    simp [h₁.1.symm, h₁.2.symm, h₂.1.symm, h₂.2.symm, h₃.1.symm, h₃.2.symm]
  | @rgba r₁ r₂ g₁ g₂ b₁ b₂ a₁ a₂ r g b a hr hg hb ha =>
    refine ⟨⟨[[r₁, r₂], [g₁, g₂], [b₁, b₂], [a₁, a₂]], [r, g, b, a], rfl, .inr rfl,
      .cons (hread hr) (.cons (hread hg) (.cons (hread hb) (.cons (hread ha) .nil))), rfl⟩, ?_⟩
    have h₁ := not_plus_of_hexByte hr
    have h₂ := not_plus_of_hexByte hg
    have h₃ := not_plus_of_hexByte hb
    have h₄ := not_plus_of_hexByte ha
    simp [h₁.1.symm, h₁.2.symm, h₂.1.symm, h₂.2.symm, h₃.1.symm, h₃.2.symm, h₄.1.symm, h₄.2.symm]

theorem spells_of_no_plus {pairs : List Text} {vs : List UInt8}
    (hn : pairs.length = 3 ∨ pairs.length = 4) (h : List.Forall₂ PairReads pairs vs)
    (hplus : '+' ∉ pairs.flatten) : Spells ('#' :: pairs.flatten) (Rgba.ofChannels vs) := by
  have hdigits {p : Text} {v : UInt8} (hp : PairReads p v) (hmem : p ∈ pairs) :
      ∃ x y, p = [x, y] ∧ hexByte x y = some v :=
    hexByte_of_pairReads hp fun hx => hplus (List.mem_flatten.mpr ⟨p, hmem, hx⟩)
  rcases h with _ | ⟨h₁, _ | ⟨h₂, _ | ⟨h₃, _ | ⟨h₄, _ | ⟨h₅, h⟩⟩⟩⟩⟩
  · simp at hn
  · simp at hn
  · simp at hn
  · obtain ⟨r₁, r₂, rfl, hr⟩ := hdigits h₁ (by simp)
    obtain ⟨g₁, g₂, rfl, hg⟩ := hdigits h₂ (by simp)
    obtain ⟨b₁, b₂, rfl, hb⟩ := hdigits h₃ (by simp)
    exact .rgb hr hg hb
  · obtain ⟨r₁, r₂, rfl, hr⟩ := hdigits h₁ (by simp)
    obtain ⟨g₁, g₂, rfl, hg⟩ := hdigits h₂ (by simp)
    obtain ⟨b₁, b₂, rfl, hb⟩ := hdigits h₃ (by simp)
    obtain ⟨a₁, a₂, rfl, ha⟩ := hdigits h₄ (by simp)
    exact .rgba hr hg hb ha
  · simp at hn

/-- A colour is read exactly from the texts that spell it, unless a slice ends inside a character
or a digit has a sign. -/
theorem fromHex_exact_iff (s : Text) :
    (Rgba.fromHex s ≠ .error .panicked ∧ ∀ c, Rgba.fromHex s = .ok c ↔ Spells s c) ↔
      ∀ t, s = '#' :: t → String.utf8Len t = 6 ∨ String.utf8Len t = 8 →
        ¬Straddles t ∧ ¬Signed t := by
  constructor
  · rintro ⟨hpanic, hexact⟩ t rfl hlen
    refine ⟨fun hstraddles => hpanic (fromHex_panicked_iff.mpr ⟨t, rfl, hlen, hstraddles⟩), ?_⟩
    rintro ⟨pairs, rfl, hpairs, hplus⟩
    obtain ⟨vs, hvs⟩ := forall_isPair_iff.mp hpairs
    have hn := utf8Len_flatten hvs
    have hok := fromHex_eq_ok_iff.mpr ⟨pairs, vs, rfl, by omega, hvs, rfl⟩
    exact (fromHex_of_spells ((hexact _).mp hok)).2 (List.mem_cons_of_mem _ hplus)
  · intro h
    refine ⟨fun hpanic => ?_, fun c => ⟨fun hok => ?_, fun hs => (fromHex_of_spells hs).1⟩⟩
    · obtain ⟨t, ht, hlen, hstraddles⟩ := fromHex_panicked_iff.mp hpanic
      exact (h t ht hlen).1 hstraddles
    · obtain ⟨pairs, vs, rfl, hn, hpairs, rfl⟩ := fromHex_eq_ok_iff.mp hok
      have hlen := utf8Len_flatten hpairs
      exact spells_of_no_plus hn hpairs fun hplus =>
        (h _ rfl (by omega)).2 ⟨pairs, rfl, forall_isPair_iff.mpr ⟨vs, hpairs⟩, hplus⟩

end Forgetty.Core
