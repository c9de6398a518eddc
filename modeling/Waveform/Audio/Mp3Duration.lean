import Mathlib.Tactic.NormNum
import Waveform.Audio.Mp3

/-!
# The walk over an MP3

- `headerFields_value_iff`: a header is accepted exactly when it spells a Layer III header.
- `walkTurn_cases`: what a turn of the walk does.
- `mp3DurationMs_exact`: exactly the MP3s are measured, and their duration is rounded up once.
-/

set_option autoImplicit false

namespace Waveform.Audio

open Outcome
open LengthPrefixed (readBigEndian)

/-! ## Headers -/

/-- Every header that the tables admit is measured. -/
theorem frameHeader_table :
    ∀ version ∈ [MpegVersion.one, .two, .twoPointFive], ∀ b ∈ List.range 14, ∀ r ∈ List.range 3,
      ∀ p ∈ List.range 2, frameHeader version .three (b + 1) r p =
        .value ⟨layer3Length version (b + 1) r p, layer3Rate version r, layer3Samples version⟩ := by
  decide +kernel

/-- A frame has at least four bytes, and lasts at most two milliseconds for each of them. -/
theorem layer3_bounds :
    ∀ version ∈ [MpegVersion.one, .two, .twoPointFive], ∀ b ∈ List.range 14, ∀ r ∈ List.range 3,
      ∀ p ∈ List.range 2, 4 ≤ layer3Length version (b + 1) r p ∧ 0 < layer3Rate version r ∧
        layer3Length version (b + 1) r p < 2 ^ 12 ∧ layer3Rate version r < 2 ^ 16 ∧
        1000 * layer3Samples version ≤
          2 * (layer3Length version (b + 1) r p * layer3Rate version r) := by
  decide +kernel

namespace Layer3Header

variable (header : Layer3Header)

/-- The fields of a header are in the lists of the tables. -/
theorem mem_table : header.version ∈ [MpegVersion.one, .two, .twoPointFive] ∧
    header.bitrateIndex - 1 ∈ List.range 14 ∧ header.rateIndex ∈ List.range 3 ∧
    header.padding ∈ List.range 2 ∧ header.bitrateIndex - 1 + 1 = header.bitrateIndex := by
  obtain ⟨version, b, r, p, hb, hr, hp⟩ := header
  simp only [List.mem_range]
  refine ⟨?_, by omega, by omega, by omega, by omega⟩
  cases version <;> simp

/-- What the parser returns for a header. -/
def frameHeader : FrameHeader := ⟨header.length, header.shape.1, header.shape.2⟩

theorem frameHeader_eq :
    Audio.frameHeader header.version .three header.bitrateIndex header.rateIndex header.padding =
      .value header.frameHeader := by
  obtain ⟨hversion, hb, hr, hp, heq⟩ := header.mem_table
  have htable := frameHeader_table _ hversion _ hb _ hr _ hp
  rwa [heq] at htable

theorem bounds : 4 ≤ header.length ∧ 0 < header.shape.1 ∧ header.length < 2 ^ 12 ∧
    header.shape.1 < 2 ^ 16 ∧
    1000 * header.shape.2 ≤ 2 * (header.length * header.shape.1) := by
  obtain ⟨hversion, hb, hr, hp, heq⟩ := header.mem_table
  have htable := layer3_bounds _ hversion _ hb _ hr _ hp
  rwa [heq] at htable

end Layer3Header

theorem versionOf_cases (bits : Nat) :
    (∃ version, versionOf bits = .value version) ∨ versionOf bits = .error .invalidMp3 := by
  unfold versionOf
  split
  · exact .inl ⟨_, rfl⟩
  · exact .inl ⟨_, rfl⟩
  · exact .inl ⟨_, rfl⟩
  · exact .inr rfl

theorem layerOf_cases (bits : Nat) :
    (layerOf bits = .value .three ∧ bits = 0b01) ∨
      (∃ layer, layerOf bits = .value layer ∧ layer ≠ .three ∧ bits ≠ 0b01) ∨
      (layerOf bits = .error .invalidMp3 ∧ bits ≠ 0b01) := by
  unfold layerOf
  split
  · exact .inr (.inl ⟨_, rfl, by decide, by decide⟩)
  · exact .inr (.inl ⟨_, rfl, by decide, by decide⟩)
  · exact .inl ⟨rfl, rfl⟩
  · rename_i hthree
    exact .inr (.inr ⟨rfl, hthree⟩)

/-- The sync word, as the mask tests it. -/
theorem syncMask {raw : Nat} (h : raw < 2 ^ 32) :
    raw &&& 0xffe00000 = 0xffe00000 ↔ raw / 2 ^ 21 = 2 ^ 11 - 1 := by
  have hmask : 0xffe00000 = 2047 <<< 21 := by decide
  have hsplit : raw &&& (2047 <<< 21) = ((raw >>> 21) &&& 2047) <<< 21 := by
    apply Nat.eq_of_testBit_eq
    intro i
    simp only [Nat.testBit_and, Nat.testBit_shiftLeft, Nat.testBit_shiftRight]
    by_cases hi : 21 ≤ i
    · simp [hi]
    · simp [hi]
  have hlow : (raw >>> 21) &&& 2047 = raw >>> 21 % 2048 := Nat.and_two_pow_sub_one_eq_mod _ 11
  rw [hmask, hsplit, hlow, Nat.shiftRight_eq_div_pow, Nat.shiftLeft_eq, Nat.shiftLeft_eq]
  omega

/-- A field of a header, as the shift and the mask read it. -/
theorem headerField (raw shift width : Nat) :
    (raw >>> shift) &&& (2 ^ width - 1) = raw / 2 ^ shift % 2 ^ width := by
  rw [Nat.and_two_pow_sub_one_eq_mod, Nat.shiftRight_eq_div_pow]

theorem headerFields_eq (raw : Nat) :
    headerFields raw = (versionOf (raw / 2 ^ 19 % 2 ^ 2) >>= fun version =>
      layerOf (raw / 2 ^ 17 % 2 ^ 2) >>= fun layer =>
        frameHeader version layer (raw / 2 ^ 12 % 2 ^ 4) (raw / 2 ^ 10 % 2 ^ 2)
          (raw / 2 ^ 9 % 2 ^ 1)) := by
  have hversion : (raw >>> 19) &&& 0b11 = raw / 2 ^ 19 % 2 ^ 2 := headerField raw 19 2
  have hlayer : (raw >>> 17) &&& 0b11 = raw / 2 ^ 17 % 2 ^ 2 := headerField raw 17 2
  have hbitrate : (raw >>> 12) &&& 0b1111 = raw / 2 ^ 12 % 2 ^ 4 := headerField raw 12 4
  have hrate : (raw >>> 10) &&& 0b11 = raw / 2 ^ 10 % 2 ^ 2 := headerField raw 10 2
  have hpadding : (raw >>> 9) &&& 1 = raw / 2 ^ 9 % 2 ^ 1 := headerField raw 9 1
  unfold headerFields
  rw [hversion, hlayer, hbitrate, hrate, hpadding]

/-- The fields behind the layer are those of a header, or they are refused. -/
theorem frameHeader_cases (version : MpegVersion) {b r p : Nat} (hb : b < 16) (hr : r < 4)
    (hp : p < 2) :
    (∃ header : Layer3Header, header.version = version ∧ header.bitrateIndex = b ∧
        header.rateIndex = r ∧ header.padding = p ∧
        frameHeader version .three b r p = .value header.frameHeader) ∨
      ((b = 0 ∨ b = 15 ∨ r = 3) ∧ frameHeader version .three b r p = .error .invalidMp3) := by
  by_cases hhole : b = 0 ∨ b = 15 ∨ r = 3
  · refine .inr ⟨hhole, ?_⟩
    unfold frameHeader
    rw [if_neg (by simp), if_pos hhole]
  · let header : Layer3Header := ⟨version, b, r, p, by omega, by omega, by omega⟩
    exact .inl ⟨header, rfl, rfl, rfl, rfl, header.frameHeader_eq⟩

/-- The bytes behind the sync word are those of a header, or they are refused. -/
theorem headerFields_value_iff {raw : Nat} (hsync : raw / 2 ^ 21 = 2 ^ 11 - 1) {fh : FrameHeader} :
    headerFields raw = .value fh ↔
      ∃ header : Layer3Header, header.SpelledBy raw ∧ fh = header.frameHeader := by
  simp only [headerFields_eq, bind_eq_value_iff]
  constructor
  · rintro ⟨version, hversion, layer, hlayer, hfields⟩
    rcases layerOf_cases (raw / 2 ^ 17 % 2 ^ 2) with ⟨hthree, hbits⟩ | ⟨other, hother, hne, _⟩ |
      ⟨herror, _⟩
    · cases hthree.symm.trans hlayer
      rcases frameHeader_cases version (b := raw / 2 ^ 12 % 2 ^ 4) (r := raw / 2 ^ 10 % 2 ^ 2)
          (p := raw / 2 ^ 9 % 2 ^ 1) (by omega) (by omega) (by omega) with
        ⟨header, hv, hb, hr, hp, heq⟩ | ⟨_, heq⟩
      · cases heq.symm.trans hfields
        exact ⟨header, ⟨hsync, hv ▸ hversion, hbits, hb.symm, hr.symm, hp.symm⟩, rfl⟩
      · cases heq.symm.trans hfields
    · cases hother.symm.trans hlayer
      rw [frameHeader, if_pos hne] at hfields
      cases hfields
    · cases herror.symm.trans hlayer
  · rintro ⟨header, hspelled, rfl⟩
    refine ⟨_, hspelled.version, .three, ?_, ?_⟩
    · rw [hspelled.layer]
      rfl
    · have hpadding : raw / 2 ^ 9 % 2 ^ 1 = header.padding := hspelled.padding
      rw [hspelled.bitrateIndex, hspelled.rateIndex, hpadding]
      exact header.frameHeader_eq

theorem headerFields_safe (raw : Nat) : (headerFields raw).Safe := by
  rw [headerFields_eq]
  refine bind_safe ?_ fun version _ => bind_safe ?_ fun layer _ => ?_
  · rcases versionOf_cases (raw / 2 ^ 19 % 2 ^ 2) with ⟨version, h⟩ | h
    · rw [h]
      trivial
    · rw [h]
      trivial
  · rcases layerOf_cases (raw / 2 ^ 17 % 2 ^ 2) with ⟨h, _⟩ | ⟨layer, h, _⟩ | ⟨h, _⟩
    · rw [h]
      trivial
    · rw [h]
      trivial
    · rw [h]
      trivial
  · by_cases hlayer : layer = .three
    · subst hlayer
      rcases frameHeader_cases version (b := raw / 2 ^ 12 % 2 ^ 4) (r := raw / 2 ^ 10 % 2 ^ 2)
          (p := raw / 2 ^ 9 % 2 ^ 1) (by omega) (by omega) (by omega) with
        ⟨header, _, _, _, _, h⟩ | ⟨_, h⟩
      · rw [h]
        trivial
      · rw [h]
        trivial
    · rw [frameHeader, if_pos hlayer]
      trivial

/-! ## Frames -/

theorem readBigEndian_lt (bytes : List UInt8) : readBigEndian bytes < 256 ^ bytes.length := by
  induction bytes using List.reverseRecOn with
  | nil => exact Nat.one_pos
  | append_singleton bytes byte ih =>
      have hbyte := byte.toNat_lt
      unfold readBigEndian at ih ⊢
      rw [List.foldl_append, List.length_append, List.length_singleton, Nat.pow_succ]
      simp only [List.foldl_cons, List.foldl_nil]
      omega

/-- The header of a frame, from what is left of the bytes. -/
theorem parseFrameHeader_eq {bytes : List UInt8} {offset : Nat} (hbytes : bytes.length < 2 ^ 63)
    (hoffset : offset ≤ bytes.length) :
    parseFrameHeader bytes offset =
      if 4 ≤ (bytes.drop offset).length ∧
          readBigEndian ((bytes.drop offset).take 4) / 2 ^ 21 = 2 ^ 11 - 1 then
        headerFields (readBigEndian ((bytes.drop offset).take 4))
      else .error .invalidMp3 := by
  unfold parseFrameHeader
  rw [saturatingAdd_eq (by omega)]
  by_cases hlength : 4 ≤ (bytes.drop offset).length
  · rw [getRange_eq ⟨by omega, by rw [List.length_drop] at hlength; omega⟩,
      Nat.add_sub_cancel_left]
    match bytes.drop offset, hlength with
    | b0 :: b1 :: b2 :: b3 :: rest, hlength =>
      have htake : (b0 :: b1 :: b2 :: b3 :: rest).take 4 = [b0, b1, b2, b3] := rfl
      have hlt : readBigEndian [b0, b1, b2, b3] < 2 ^ 32 := by
        simpa using readBigEndian_lt [b0, b1, b2, b3]
      simp only [htake, okOr, index, value_bind, List.getElem?_cons_zero, List.getElem?_cons_succ,
        ne_eq, syncMask hlt, hlength, true_and]
      split <;> simp_all
  · have hnone : getRange bytes offset (offset + 4) = none := by
      rw [getRange, if_neg]
      rw [List.length_drop] at hlength
      omega
    rw [hnone, if_neg (fun h => hlength h.1)]
    rfl

/-- The bytes start with a whole frame. -/
def StartsFrame (header : Layer3Header) (rest : List UInt8) : Prop :=
  IsFrame header (rest.take header.length)

theorem StartsFrame.length_le {header : Layer3Header} {rest : List UInt8}
    (h : StartsFrame header rest) : header.length ≤ rest.length := by
  have hwhole := h.whole
  rw [List.length_take] at hwhole
  omega

theorem startsFrame_iff {header : Layer3Header} {rest : List UInt8} :
    StartsFrame header rest ↔
      header.SpelledBy (readBigEndian (rest.take 4)) ∧ header.length ≤ rest.length := by
  have hfour : (rest.take header.length).take 4 = rest.take 4 := by
    rw [List.take_take, Nat.min_eq_left header.bounds.1]
  constructor
  · intro h
    exact ⟨hfour ▸ h.spelled, h.length_le⟩
  · rintro ⟨hspelled, hlength⟩
    exact ⟨by rwa [hfour], by rw [List.length_take]; omega⟩

/-- A frame in front of anything. -/
theorem IsFrame.starts {header : Layer3Header} {frame : List UInt8} (h : IsFrame header frame)
    (rest : List UInt8) : StartsFrame header (frame ++ rest) := by
  unfold StartsFrame
  rw [← h.whole, List.take_left]
  exact h

/-- A header is spelled in one way. -/
theorem frameHeader_of_spelled {header other : Layer3Header} {raw : Nat}
    (h : header.SpelledBy raw) (h' : other.SpelledBy raw) :
    header.length = other.length ∧ header.shape = other.shape := by
  have hvalue := (headerFields_value_iff h.sync).mpr ⟨header, h, rfl⟩
  have hvalue' := (headerFields_value_iff h.sync).mpr ⟨other, h', rfl⟩
  have heq : header.frameHeader = other.frameHeader := Outcome.value.inj (hvalue.symm.trans hvalue')
  have hrate : header.shape.1 = other.shape.1 := congrArg FrameHeader.sampleRate heq
  have hsamples : header.shape.2 = other.shape.2 := congrArg FrameHeader.samplesPerFrame heq
  exact ⟨congrArg FrameHeader.frameLen heq, Prod.ext hrate hsamples⟩

/-- A frame starts with the byte 0xFF, and no tag does. -/
theorem StartsFrame.head {header : Layer3Header} {rest : List UInt8} (h : StartsFrame header rest) :
    rest.head? = some 0xff := by
  obtain ⟨hspelled, hlength⟩ := startsFrame_iff.mp h
  have hfour : 4 ≤ rest.length := by
    have hbounds := header.bounds.1
    omega
  match rest, hfour with
  | b0 :: b1 :: b2 :: b3 :: rest, _ =>
    have hsync : readBigEndian [b0, b1, b2, b3] / 2 ^ 21 = 2 ^ 11 - 1 := hspelled.sync
    simp only [readBigEndian, List.foldl_cons, List.foldl_nil] at hsync
    have h0 := b0.toNat_lt
    have h1 := b1.toNat_lt
    have h2 := b2.toNat_lt
    have h3 := b3.toNat_lt
    have hbyte : b0.toNat = 255 := by omega
    rw [List.head?_cons, ← UInt8.ofNat_toNat (x := b0), hbyte]
    rfl

theorem not_startsFrame_of_prefix {tag rest : List UInt8} {byte : UInt8} {header : Layer3Header}
    (htag : tag.head? = some byte) (hbyte : byte ≠ 0xff) (h : tag <+: rest) :
    ¬ StartsFrame header rest := by
  intro hframe
  have hhead := hframe.head
  obtain ⟨suffix, rfl⟩ := h
  rw [List.head?_append, htag] at hhead
  exact hbyte (Option.some.inj hhead)

theorem IsTrailer.not_startsFrame {header : Layer3Header} {rest : List UInt8} (h : IsTrailer rest) :
    ¬ StartsFrame header rest := by
  rcases h with rfl | ⟨_, h⟩ | h
  · intro hframe
    cases hframe.head
  · exact not_startsFrame_of_prefix rfl (by decide) h
  · exact not_startsFrame_of_prefix rfl (by decide) h

theorem parseFrameHeader_cases {bytes : List UInt8} {offset : Nat} (hbytes : bytes.length < 2 ^ 63)
    (hoffset : offset ≤ bytes.length) :
    (∃ header : Layer3Header, header.SpelledBy (readBigEndian ((bytes.drop offset).take 4)) ∧
        parseFrameHeader bytes offset = .value header.frameHeader) ∨
      (parseFrameHeader bytes offset = .error .invalidMp3 ∧
        ∀ header : Layer3Header, ¬ StartsFrame header (bytes.drop offset)) := by
  rw [parseFrameHeader_eq hbytes hoffset]
  split
  · rename_i hstart
    rcases safe_iff.mp (headerFields_safe (readBigEndian ((bytes.drop offset).take 4))) with
      ⟨fh, hvalue⟩ | ⟨_, herror⟩
    · obtain ⟨header, hspelled, rfl⟩ := (headerFields_value_iff hstart.2).mp hvalue
      exact .inl ⟨header, hspelled, hvalue⟩
    · refine .inr ⟨herror, fun header hframe => ?_⟩
      have hvalue := (headerFields_value_iff hstart.2).mpr
        ⟨header, (startsFrame_iff.mp hframe).1, rfl⟩
      cases herror.symm.trans hvalue
  · rename_i hstart
    refine .inr ⟨rfl, fun header hframe => hstart ⟨?_, ?_⟩⟩
    · exact Nat.le_trans header.bounds.1 hframe.length_le
    · exact (startsFrame_iff.mp hframe).1.sync

/-! ## The walk -/

theorem isTrailingTag_iff {bytes : List UInt8} :
    bytes = [] ∨ isTrailingTag bytes = true ↔ IsTrailer bytes := by
  simp [isTrailingTag, IsTrailer]

/-- The variables after a frame with this header. -/
def WalkState.after (s : WalkState) (header : Layer3Header) : WalkState :=
  ⟨s.offset + header.length, s.frameCount + 1, s.totalSamples + header.shape.2, some header.shape⟩

/-- What holds of the variables behind whole frames of one shape. -/
structure Walked (bytes : List UInt8) (s : WalkState) : Prop where
  within : s.offset ≤ bytes.length
  counted : s.frameCount ≤ s.offset
  unmeasured : s.streamShape = none → s.frameCount = 0 ∧ s.totalSamples = 0
  measured : ∀ rate samples, s.streamShape = some (rate, samples) →
    0 < s.frameCount ∧ 0 < rate ∧ rate < 2 ^ 16 ∧ s.totalSamples = s.frameCount * samples ∧
      1000 * s.totalSamples ≤ 2 * (s.offset * rate)

theorem Walked.start {bytes : List UInt8} {offset : Nat} (h : offset ≤ bytes.length) :
    Walked bytes { offset } :=
  ⟨h, Nat.zero_le _, fun _ => ⟨rfl, rfl⟩, fun _ _ hnone => nomatch hnone⟩

/-- Another frame of the same shape. -/
theorem Walked.after {bytes : List UInt8} {s : WalkState} {header : Layer3Header}
    (h : Walked bytes s) (hframe : StartsFrame header (bytes.drop s.offset))
    (hshape : ∀ shape ∈ s.streamShape, shape = header.shape) : Walked bytes (s.after header) := by
  obtain ⟨hfour, hrate, _, hrateBound, hduration⟩ := header.bounds
  have hfits := hframe.length_le
  have hwithin := h.within
  have hcounted := h.counted
  rw [List.length_drop] at hfits
  refine ⟨?_, ?_, ?_, ?_⟩
  · change s.offset + header.length ≤ bytes.length
    omega
  · change s.frameCount + 1 ≤ s.offset + header.length
    omega
  · intro hnone
    cases hnone
  · rintro rate samples hsome
    have heq : header.shape = (rate, samples) := Option.some.inj hsome
    rw [heq] at hrate hrateBound hduration
    dsimp only at hrate hrateBound hduration
    refine ⟨Nat.succ_pos _, hrate, hrateBound, ?_⟩
    change s.totalSamples + header.shape.2 = (s.frameCount + 1) * samples ∧
      1000 * (s.totalSamples + header.shape.2) ≤ 2 * ((s.offset + header.length) * rate)
    rw [heq, Nat.add_mul, Nat.add_mul, Nat.one_mul]
    cases hstream : s.streamShape with
    | none =>
        obtain ⟨hcount, htotal⟩ := h.unmeasured hstream
        rw [hcount, htotal]
        omega
    | some shape =>
        have hsame : shape = (rate, samples) := by rw [hshape shape hstream, heq]
        subst hsame
        obtain ⟨_, _, _, htotal, hpast⟩ := h.measured rate samples hstream
        omega

/-- The samples behind whole frames are far below the width they are counted at. -/
theorem Walked.samples_lt {bytes : List UInt8} {s : WalkState} (hbytes : bytes.length < 2 ^ 63)
    (h : Walked bytes s) : 1000 * s.totalSamples < 2 ^ 80 := by
  have hwithin := h.within
  cases hstream : s.streamShape with
  | none =>
      obtain ⟨_, htotal⟩ := h.unmeasured hstream
      rw [htotal]
      norm_num
  | some shape =>
      obtain ⟨_, _, hrate, _, hduration⟩ := h.measured shape.1 shape.2 hstream
      have hproduct : s.offset * shape.1 < 2 ^ 63 * 2 ^ 16 :=
        Nat.mul_lt_mul'' (Nat.lt_of_le_of_lt hwithin hbytes) hrate
      norm_num at hproduct ⊢
      omega

theorem any_ne_iff {stream : Option (Nat × Nat)} {shape : Nat × Nat} :
    stream.any (· ≠ shape) = true ↔ ∃ other ∈ stream, other ≠ shape := by
  cases stream <;> simp

/-- A turn of the walk: it stops at what may follow the frames, takes a frame of the shape so far,
or refuses the bytes. -/
theorem walkTurn_cases {bytes : List UInt8} {s : WalkState} (hbytes : bytes.length < 2 ^ 63)
    (h : Walked bytes s) :
    (IsTrailer (bytes.drop s.offset) ∧ walkTurn bytes s = .value (.exit s)) ∨
      (∃ header, StartsFrame header (bytes.drop s.offset) ∧
        (∀ shape ∈ s.streamShape, shape = header.shape) ∧
        walkTurn bytes s = .value (.again (s.after header))) ∨
      (walkTurn bytes s = .error .invalidMp3 ∧ ¬ IsTrailer (bytes.drop s.offset) ∧
        ∀ header, StartsFrame header (bytes.drop s.offset) →
          ∃ shape ∈ s.streamShape, shape ≠ header.shape) := by
  have hwithin := h.within
  have hcounted := h.counted
  unfold walkTurn
  by_cases hlt : s.offset < bytes.length
  swap
  · have hrest : bytes.drop s.offset = [] := List.drop_eq_nil_of_le (by omega)
    rw [if_neg hlt, hrest]
    exact .inl ⟨.inl rfl, rfl⟩
  have hslice : (slice bytes s.offset bytes.length : Outcome AudioError (List UInt8)) =
      .value (bytes.drop s.offset) := by
    rw [slice_eq ⟨hwithin, Nat.le_refl _⟩, List.take_of_length_le (by simp)]
  rw [if_pos hlt, hslice, value_bind]
  cases htag : isTrailingTag (bytes.drop s.offset) with
  | true =>
      rw [if_pos rfl]
      exact .inl ⟨isTrailingTag_iff.mp (.inr htag), rfl⟩
  | false =>
      have htrailer : ¬ IsTrailer (bytes.drop s.offset) := by
        rw [← isTrailingTag_iff, htag, List.drop_eq_nil_iff]
        rintro (hnil | hfalse)
        · omega
        · cases hfalse
      rw [if_neg (by simp)]
      rcases parseFrameHeader_cases hbytes hwithin with ⟨header, hspelled, hparse⟩ |
        ⟨hparse, hnone⟩
      swap
      · rw [hparse]
        exact .inr (.inr ⟨rfl, htrailer, fun header hframe => absurd hframe (hnone header)⟩)
      obtain ⟨_, _, hlength, _, hduration⟩ := header.bounds
      have hstop : checkedAdd 64 s.offset header.frameHeader.frameLen =
          some (s.offset + header.length) := checkedAdd_eq (by change _ + header.length < _; omega)
      rw [hparse, value_bind, hstop]
      simp only [okOr, value_bind]
      by_cases hfits : bytes.length < s.offset + header.length
      · rw [if_pos hfits]
        refine .inr (.inr ⟨rfl, htrailer, fun other hframe => ?_⟩)
        have hsame := frameHeader_of_spelled hspelled (startsFrame_iff.mp hframe).1
        have hother := hframe.length_le
        rw [List.length_drop] at hother
        omega
      · have hframe : StartsFrame header (bytes.drop s.offset) :=
          startsFrame_iff.mpr ⟨hspelled, by rw [List.length_drop]; omega⟩
        rw [if_neg hfits]
        have hany : (s.streamShape.any (· ≠ (header.frameHeader.sampleRate,
            header.frameHeader.samplesPerFrame)) = true) ↔
            ∃ shape ∈ s.streamShape, shape ≠ header.shape := any_ne_iff
        by_cases hshape : ∀ shape ∈ s.streamShape, shape = header.shape
        · refine .inr (.inl ⟨header, hframe, hshape, ?_⟩)
          have htotal : 1000 * (s.totalSamples + header.shape.2) < 2 ^ 80 :=
            (h.after hframe hshape).samples_lt hbytes
          have hsum : checkedAdd 128 s.totalSamples header.frameHeader.samplesPerFrame =
              some (s.totalSamples + header.shape.2) :=
            checkedAdd_eq (by change _ + header.shape.2 < _; omega)
          rw [if_neg (by rw [hany]; simpa using hshape), hsum,
            saturatingAdd_eq (by omega)]
          rfl
        · refine .inr (.inr ⟨?_, htrailer, fun other hother => ?_⟩)
          · rw [if_pos (by rw [hany]; simpa using hshape)]
          · have hsame := frameHeader_of_spelled hspelled (startsFrame_iff.mp hother).1
            rw [← hsame.2]
            simpa using hshape

section Walk

variable {bytes : List UInt8} {s : WalkState}

theorem walkTurn_again (hbytes : bytes.length < 2 ^ 63) {s' : WalkState} (h : Walked bytes s)
    (hturn : walkTurn bytes s = .value (.again s')) :
    Walked bytes s' ∧ bytes.length - s'.offset < bytes.length - s.offset := by
  rcases walkTurn_cases hbytes h with ⟨_, heq⟩ | ⟨header, hframe, hshape, heq⟩ | ⟨heq, _⟩
  · cases heq.symm.trans hturn
  · obtain rfl : s.after header = s' := by
      cases heq.symm.trans hturn
      rfl
    have hfits := hframe.length_le
    have hfour := header.bounds.1
    have hwithin := h.within
    rw [List.length_drop] at hfits
    refine ⟨h.after hframe hshape, ?_⟩
    change bytes.length - (s.offset + header.length) < _
    omega
  · cases heq.symm.trans hturn

/-- Whole frames of one shape in front of what may follow them are walked to the end. -/
theorem ends_of_frames (hbytes : bytes.length < 2 ^ 63) {shape : Nat × Nat} {trailer : List UInt8}
    (htrailer : IsTrailer trailer) {frames : List (List UInt8)}
    (huniform : ∀ frame ∈ frames, ∃ header : Layer3Header,
      IsFrame header frame ∧ header.shape = shape) (h : Walked bytes s)
    (hshape : ∀ other ∈ s.streamShape, other = shape)
    (hrest : bytes.drop s.offset = frames.flatten ++ trailer) :
    ∃ s', Ends (walkTurn bytes) s (.value s') ∧ Walked bytes s' ∧
      s'.frameCount = s.frameCount + frames.length ∧
      s'.streamShape = if frames = [] then s.streamShape else some shape := by
  induction frames generalizing s with
  | nil =>
      rw [List.flatten_nil, List.nil_append] at hrest
      rcases walkTurn_cases hbytes h with ⟨_, heq⟩ | ⟨header, hframe, _⟩ | ⟨_, hnot, _⟩
      · exact ⟨s, .exit heq, h, rfl, rfl⟩
      · exact absurd (hrest ▸ hframe) htrailer.not_startsFrame
      · exact absurd (hrest ▸ htrailer) hnot
  | cons frame frames ih =>
      obtain ⟨header, hframe, rfl⟩ := huniform frame List.mem_cons_self
      rw [List.flatten_cons, List.append_assoc] at hrest
      have hstarts : StartsFrame header (bytes.drop s.offset) := by
        rw [hrest]
        exact hframe.starts _
      rcases walkTurn_cases hbytes h with ⟨hend, _⟩ | ⟨other, hother, hagree, heq⟩ | ⟨_, _, hnone⟩
      · exact absurd hstarts hend.not_startsFrame
      · have hsame := frameHeader_of_spelled (startsFrame_iff.mp hother).1
          (startsFrame_iff.mp hstarts).1
        have hafter : bytes.drop (s.after other).offset = frames.flatten ++ trailer := by
          change bytes.drop (s.offset + other.length) = _
          rw [← List.drop_drop, hrest, hsame.1, ← hframe.whole, List.drop_left]
        obtain ⟨s', hends, hwalked, hcount, hstream⟩ :=
          ih (fun frame hmem => huniform frame (List.mem_cons_of_mem _ hmem))
            (h.after hother hagree) (fun shape hsome => by
              rw [← hsame.2]
              exact (Option.some.inj hsome).symm) hafter
        refine ⟨s', .again heq hends, hwalked, ?_, ?_⟩
        · rw [hcount, List.length_cons]
          change s.frameCount + 1 + _ = _
          omega
        · have hfirst : (s.after other).streamShape = some header.shape := congrArg some hsame.2
          rw [hstream, hfirst, ite_self, if_neg (List.cons_ne_nil _ _)]
      · obtain ⟨other, hsome, hne⟩ := hnone header hstarts
        exact absurd (hshape other hsome) hne

/-- A walk that ends has read whole frames of one shape, up to what may follow them. -/
theorem frames_of_ends (hbytes : bytes.length < 2 ^ 63) {r : Outcome AudioError WalkState}
    {s' : WalkState} (hends : Ends (walkTurn bytes) s r) (h : Walked bytes s) (hr : r = .value s') :
    ∃ (frames : List (List UInt8)) (trailer : List UInt8),
      bytes.drop s.offset = frames.flatten ++ trailer ∧ IsTrailer trailer ∧ Walked bytes s' ∧
      s'.frameCount = s.frameCount + frames.length ∧
      (∀ shape ∈ s.streamShape, s'.streamShape = some shape) ∧
      ∀ frame ∈ frames, ∃ header : Layer3Header,
        IsFrame header frame ∧ s'.streamShape = some header.shape := by
  induction hends with
  | @exit s s'' hturn =>
      obtain rfl := Outcome.value.inj hr
      rcases walkTurn_cases hbytes h with ⟨hend, heq⟩ | ⟨_, _, _, heq⟩ | ⟨heq, _⟩
      · cases heq.symm.trans hturn
        exact ⟨[], _, rfl, hend, h, rfl, fun _ hsome => hsome,
          fun _ hmem => absurd hmem List.not_mem_nil⟩
      · cases heq.symm.trans hturn
      · cases heq.symm.trans hturn
  | error _ => cases hr
  | panic _ => cases hr
  | @again s s'' r hturn _ ih =>
      rcases walkTurn_cases hbytes h with ⟨_, heq⟩ | ⟨header, hframe, hshape, heq⟩ | ⟨heq, _⟩
      · cases heq.symm.trans hturn
      · obtain rfl : s.after header = s'' := by
          cases heq.symm.trans hturn
          rfl
        obtain ⟨frames, trailer, hrest, hend, hwalked, hcount, hstream, hall⟩ :=
          ih (h.after hframe hshape) hr
        have hlast : s'.streamShape = some header.shape := hstream header.shape rfl
        refine ⟨(bytes.drop s.offset).take header.length :: frames, trailer, ?_, hend, hwalked, ?_,
          ?_, ?_⟩
        · have hdrop : (bytes.drop s.offset).drop header.length = frames.flatten ++ trailer := by
            rw [List.drop_drop]
            exact hrest
          rw [List.flatten_cons, List.append_assoc, ← hdrop, List.take_append_drop]
        · rw [hcount, List.length_cons]
          change s.frameCount + 1 + _ = _
          omega
        · intro shape hsome
          rw [hlast, hshape shape hsome]
        · intro frame hmem
          rcases List.mem_cons.mp hmem with rfl | hmem
          · exact ⟨header, hframe, hlast⟩
          · exact hall frame hmem
      · cases heq.symm.trans hturn

/-- The duration of whole frames of one shape. -/
theorem walkedDuration_eq (hbytes : bytes.length < 2 ^ 63) (h : Walked bytes s)
    {shape : Nat × Nat} (hshape : s.streamShape = some shape) :
    walkedDuration s = .value ((1000 * (s.frameCount * shape.2)) ⌈/⌉ shape.1) := by
  obtain ⟨hcount, hrate, hrateBound, htotal, hduration⟩ := h.measured shape.1 shape.2 hshape
  have hsamples := h.samples_lt hbytes
  have hwithin := h.within
  have hmillis : (s.totalSamples * 1000 + (shape.1 - 1)) / shape.1 < 2 ^ 64 := by
    rw [Nat.div_lt_iff_lt_mul hrate]
    have hoffset : s.offset * shape.1 ≤ (2 ^ 63 - 1) * shape.1 :=
      Nat.mul_le_mul_right _ (by omega)
    norm_num at hoffset ⊢
    omega
  unfold walkedDuration
  rw [if_neg (by omega), hshape]
  simp only [okOr, value_bind]
  rw [checkedMul_eq (by norm_num at hsamples ⊢; omega), sub_eq (by omega)]
  simp only [value_bind]
  rw [checkedAdd_eq (by norm_num at hsamples hrateBound ⊢; omega)]
  simp only [value_bind]
  rw [div_eq (by omega), value_bind, tryFrom_eq hmillis]
  simp only [Nat.ceilDiv_eq_add_pred_div, ← htotal]
  congr 2
  omega

end Walk

/-! ## Tags in front -/

theorem highBit (byte : UInt8) : (byte &&& 0x80 != 0) = decide (128 ≤ byte.toNat) := by
  have htable : ∀ n < 256, (UInt8.ofNat n &&& 0x80 != 0) = decide (128 ≤ n) := by decide +kernel
  have h := htable byte.toNat byte.toNat_lt
  rwa [UInt8.ofNat_toNat] at h

theorem footerBit (flags : UInt8) :
    (if flags &&& 0x10 != 0 then 10 else 0) = flags.toNat / 16 % 2 * 10 := by
  have htable : ∀ n < 256, (if UInt8.ofNat n &&& 0x10 != 0 then 10 else 0) = n / 16 % 2 * 10 := by
    decide +kernel
  have h := htable flags.toNat flags.toNat_lt
  rwa [UInt8.ofNat_toNat] at h

/-- A synchsafe size is read by shifts, and fits. -/
theorem synchsafe_fold {size : List UInt8} (hsafe : ∀ byte ∈ size, byte.toNat < 128) {value : Nat}
    (hvalue : (value + 1) * 128 ^ size.length ≤ 2 ^ 57) :
    size.foldl (fun value byte => (value <<< 7) % 2 ^ 64 ||| byte.toNat) value =
        size.foldl (fun value byte => value * 128 + byte.toNat) value ∧
      size.foldl (fun value byte => value * 128 + byte.toNat) value <
        (value + 1) * 128 ^ size.length := by
  induction size generalizing value with
  | nil => exact ⟨rfl, by simp⟩
  | cons byte size ih =>
      have hbyte := hsafe byte List.mem_cons_self
      have hpow : 1 ≤ 128 ^ size.length := Nat.one_le_pow _ _ (by decide)
      have hwidth : (value + 1) * 128 ^ (byte :: size).length =
          (value + 1) * 128 * 128 ^ size.length := by
        rw [List.length_cons, Nat.pow_succ, Nat.mul_comm (128 ^ size.length), Nat.mul_assoc]
      rw [hwidth] at hvalue ⊢
      have hnext : (value * 128 + byte.toNat + 1) * 128 ^ size.length ≤
          (value + 1) * 128 * 128 ^ size.length := Nat.mul_le_mul_right _ (by omega)
      have hsmall : (value + 1) * 128 ≤ 2 ^ 57 :=
        Nat.le_trans (Nat.le_mul_of_pos_right _ hpow) hvalue
      have hstep : (value <<< 7) % 2 ^ 64 ||| byte.toNat = value * 128 + byte.toNat := by
        rw [Nat.shiftLeft_eq, Nat.mod_eq_of_lt (by norm_num at hsmall ⊢; omega),
          ← Nat.shiftLeft_eq, ← Nat.shiftLeft_add_eq_or_of_lt (by simpa using hbyte),
          Nat.shiftLeft_eq]
      rw [List.foldl_cons, List.foldl_cons, hstep]
      obtain ⟨heq, hlt⟩ := ih (fun other hmem => hsafe other (List.mem_cons_of_mem _ hmem))
        (Nat.le_trans hnext hvalue)
      exact ⟨heq, Nat.lt_of_lt_of_le hlt hnext⟩

/-- The bytes of a tag header and what follows it. -/
def tagStart (major revision flags : UInt8) (size rest : List UInt8) : List UInt8 :=
  ascii "ID3" ++ ([major, revision, flags] ++ (size ++ rest))

theorem Id3v2Tag.length_bytes (tag : Id3v2Tag) :
    tag.bytes.length = 10 + synchsafeSize tag.size + tag.flags.toNat / 16 % 2 * 10 := by
  have hthree : (ascii "ID3").length = 3 := by decide
  simp only [Id3v2Tag.bytes, List.length_append, tag.sizeLength, tag.bodyLength, List.length_cons,
    List.length_nil, hthree]
  omega

/-- A tag in front of the bytes has the fields that they show. -/
theorem Id3v2Tag.of_prefix {tag : Id3v2Tag} {major revision flags : UInt8} {size rest : List UInt8}
    (hsize : size.length = 4) (h : tag.bytes <+: tagStart major revision flags size rest) :
    [tag.major, tag.revision, tag.flags] = [major, revision, flags] ∧ tag.size = size := by
  obtain ⟨suffix, heq⟩ := h
  unfold Id3v2Tag.bytes tagStart at heq
  simp only [List.append_assoc] at heq
  obtain ⟨hfront, hback⟩ := List.append_inj (List.append_cancel_left heq) rfl
  obtain ⟨hsame, _⟩ := List.append_inj hback (tag.sizeLength.trans hsize.symm)
  exact ⟨hfront, hsame⟩

/-- At most one tag is in front of the bytes. -/
theorem Id3v2Tag.unique {tag other : Id3v2Tag} {bytes : List UInt8} (h : tag.bytes <+: bytes)
    (h' : other.bytes <+: bytes) : tag = other := by
  obtain ⟨suffix, rfl⟩ := h'
  have hstart : other.bytes ++ suffix =
      tagStart other.major other.revision other.flags other.size (other.body ++ suffix) := by
    simp only [Id3v2Tag.bytes, tagStart, List.append_assoc]
  obtain ⟨hfields, hsize⟩ := Id3v2Tag.of_prefix other.sizeLength (hstart ▸ h)
  simp only [List.cons.injEq, and_true] at hfields
  obtain ⟨hmajor, hrevision, hflags⟩ := hfields
  -- The fields give the length, and with it the body.
  have hbytes : tag.bytes = other.bytes := by
    have hlength : tag.bytes.length = other.bytes.length := by
      rw [tag.length_bytes, other.length_bytes, hsize, hflags]
    exact (List.append_inj (h.choose_spec.trans rfl) hlength).1
  have hbody : tag.body = other.body := by
    unfold Id3v2Tag.bytes at hbytes
    rw [hmajor, hrevision, hflags, hsize] at hbytes
    exact List.append_cancel_left
      (List.append_cancel_left (List.append_cancel_left hbytes))
  cases tag
  cases other
  simp only at hmajor hrevision hflags hsize hbody
  subst hmajor hrevision hflags hsize hbody
  rfl

/-- `id3v2_end` of bytes that start as a tag. -/
theorem id3v2End_tagStart (major revision flags : UInt8) {size : List UInt8} (rest : List UInt8)
    (hsize : size.length = 4) :
    id3v2End (tagStart major revision flags size rest) =
      if (∃ byte ∈ size, 128 ≤ byte.toNat) ∨ (tagStart major revision flags size rest).length <
          10 + synchsafeSize size + flags.toNat / 16 % 2 * 10 then .error .invalidMp3
      else .value (10 + synchsafeSize size + flags.toNat / 16 % 2 * 10) := by
  have hthree : (ascii "ID3").length = 3 := by decide
  have hlength : 10 ≤ (tagStart major revision flags size rest).length := by
    simp only [tagStart, List.length_append, hthree, hsize, List.length_cons, List.length_nil]
    omega
  have hid : (ascii "ID3").isPrefixOf (tagStart major revision flags size rest) = true :=
    List.isPrefixOf_iff_prefix.mpr (List.prefix_append _ _)
  have hheader : getRange (tagStart major revision flags size rest) 0 10 =
      some (tagStart major revision flags size []) := by
    rw [getRange_eq ⟨by omega, hlength⟩, List.drop_zero, tagStart, tagStart]
    match size, hsize with
    | [s0, s1, s2, s3], _ => rfl
  have hslice : (slice (tagStart major revision flags size []) 6 10 :
      Outcome AudioError (List UInt8)) = .value size := by
    match size, hsize with
    | [s0, s1, s2, s3], _ => rfl
  have hflags : (index (tagStart major revision flags size []) 5 : Outcome AudioError UInt8) =
      .value flags := rfl
  unfold id3v2End
  rw [hid]
  simp only [hheader, okOr, value_bind, hslice, hflags, footerBit, highBit, Bool.not_true,
    Bool.false_eq_true, if_false]
  by_cases hhigh : ∃ byte ∈ size, 128 ≤ byte.toNat
  · rw [if_pos (by simpa using hhigh), if_pos (.inl hhigh)]
  have hsafe : ∀ byte ∈ size, byte.toNat < 128 := by
    intro byte hmem
    by_contra hge
    exact hhigh ⟨byte, hmem, by omega⟩
  obtain ⟨hfold, hlt⟩ := synchsafe_fold hsafe
    (show (0 + 1) * 128 ^ size.length ≤ 2 ^ 57 by rw [hsize]; decide)
  change _ = synchsafeSize size at hfold
  change synchsafeSize size < _ at hlt
  rw [hsize] at hlt
  have hfooter : flags.toNat / 16 % 2 * 10 ≤ 10 := by omega
  rw [if_neg (by simpa using hhigh), hfold, checkedAdd_eq (by omega), Option.bind_some,
    checkedAdd_eq (by omega)]
  by_cases hfits : (tagStart major revision flags size rest).length <
      10 + synchsafeSize size + flags.toNat / 16 % 2 * 10
  · rw [if_pos (.inr hfits), Option.filter_some_neg (by simpa using hfits)]
  · rw [if_neg (not_or.mpr ⟨hhigh, hfits⟩), Option.filter_some_pos (by simpa using hfits)]

/-- The tag in front of the frames: none, one within the bytes, or a broken one. -/
theorem id3v2End_cases (bytes : List UInt8) :
    (¬ ascii "ID3" <+: bytes ∧ id3v2End bytes = .value 0) ∨
      (∃ tag : Id3v2Tag, tag.bytes <+: bytes ∧ id3v2End bytes = .value tag.bytes.length) ∨
      (id3v2End bytes = .error .invalidMp3 ∧ ascii "ID3" <+: bytes ∧
        ∀ tag : Id3v2Tag, ¬ tag.bytes <+: bytes) := by
  by_cases hid : ascii "ID3" <+: bytes
  swap
  · refine .inl ⟨hid, ?_⟩
    have hfalse : (ascii "ID3").isPrefixOf bytes = false := by
      rw [← Bool.not_eq_true, List.isPrefixOf_iff_prefix]
      exact hid
    rw [id3v2End, hfalse]
    rfl
  by_cases hlength : 10 ≤ bytes.length
  swap
  · have hshort : getRange bytes 0 10 = none := if_neg (by omega)
    refine .inr (.inr ⟨?_, hid, fun tag htag => ?_⟩)
    · rw [id3v2End, List.isPrefixOf_iff_prefix.mpr hid, hshort]
      rfl
    · have hle := htag.length_le
      rw [tag.length_bytes] at hle
      omega
  obtain ⟨rest, rfl⟩ := hid
  match rest, hlength with
  | major :: revision :: flags :: s0 :: s1 :: s2 :: s3 :: rest, _ =>
    let size := [s0, s1, s2, s3]
    change (_ ∧ id3v2End (tagStart major revision flags size rest) = _) ∨
      (∃ tag : Id3v2Tag, tag.bytes <+: tagStart major revision flags size rest ∧
        id3v2End (tagStart major revision flags size rest) = _) ∨
      (id3v2End (tagStart major revision flags size rest) = _ ∧ _ ∧
        ∀ tag : Id3v2Tag, ¬ tag.bytes <+: tagStart major revision flags size rest)
    rw [id3v2End_tagStart major revision flags rest rfl]
    split
    · rename_i hbroken
      refine .inr (.inr ⟨rfl, List.prefix_append _ _, fun tag htag => ?_⟩)
      obtain ⟨hfields, hsize⟩ := Id3v2Tag.of_prefix rfl htag
      have hflags : tag.flags = flags := by
        simp only [List.cons.injEq] at hfields
        exact hfields.2.2.1
      rcases hbroken with ⟨byte, hmem, hhigh⟩ | hfits
      · have hsafe := tag.synchsafe byte (hsize ▸ hmem)
        omega
      · have hle := htag.length_le
        rw [tag.length_bytes, hflags, hsize] at hle
        omega
    · rename_i hfine
      rw [not_or] at hfine
      have hbody : synchsafeSize size + flags.toNat / 16 % 2 * 10 ≤ rest.length := by
        have hthree : (ascii "ID3").length = 3 := by decide
        have hfits := hfine.2
        simp only [tagStart, List.length_append, hthree, List.length_cons, List.length_nil,
          size] at hfits ⊢
        omega
      let tag : Id3v2Tag :=
        { major, revision, flags, size
          body := rest.take (synchsafeSize size + flags.toNat / 16 % 2 * 10)
          sizeLength := rfl
          synchsafe := fun byte hmem => by
            by_contra hge
            exact hfine.1 ⟨byte, hmem, by omega⟩
          bodyLength := by rw [List.length_take]; omega }
      refine .inr (.inl ⟨tag, ?_, ?_⟩)
      · refine (List.prefix_append_right_inj _).mpr ((List.prefix_append_right_inj _).mpr
          ((List.prefix_append_right_inj _).mpr (List.take_prefix _ _)))
      · rw [tag.length_bytes]

/-! ## The whole file -/

section Duration

variable (bytes : ByteSlice)

/-- The walk from an offset, and the duration of what it walked. -/
def durationFrom (offset : Nat) : Option (Outcome AudioError Nat) :=
  (loop (walkTurn bytes.toList) (bytes.toList.length + 1) { offset }).map (· >>= walkedDuration)

variable {bytes} {offset : Nat}

/-- The walk ends, and its fuel does not show. -/
theorem durationFrom_iff (hoffset : offset ≤ bytes.toList.length) {r : Outcome AudioError Nat} :
    durationFrom bytes offset = some r ↔
      ∃ s, Ends (walkTurn bytes.toList) { offset } s ∧ (s >>= walkedDuration) = r := by
  have hloop : ∀ r, loop (walkTurn bytes.toList) (bytes.toList.length + 1) { offset } = some r ↔
      Ends (walkTurn bytes.toList) { offset } r := fun r =>
    -- Each turn that goes on takes a whole frame from what is left.
    loop_eq_some_iff (fun s => bytes.toList.length - s.offset) (Walked bytes.toList)
      (fun s s' hwalked hturn => walkTurn_again bytes.bounded hwalked hturn) (Walked.start hoffset)
      (by change bytes.toList.length - offset < _; omega)
  simp only [durationFrom, Option.map_eq_some_iff, hloop]

theorem durationFrom_isSome (hoffset : offset ≤ bytes.toList.length) :
    ∃ r, durationFrom bytes offset = some r := by
  obtain ⟨s, hs⟩ := loop_ends (fun s : WalkState => bytes.toList.length - s.offset)
    (Walked bytes.toList)
    (fun s s' hwalked hturn => walkTurn_again bytes.bounded hwalked hturn) (Walked.start hoffset)
    (show bytes.toList.length - offset < bytes.toList.length + 1 by omega)
  exact ⟨_, congrArg (Option.map (· >>= walkedDuration)) hs⟩

/-- One or more whole frames of one shape, and what may follow them. -/
structure Framed (rest : List UInt8) (shape : Nat × Nat) (frames : List (List UInt8))
    (trailer : List UInt8) : Prop where
  parts : rest = frames.flatten ++ trailer
  nonEmpty : frames ≠ []
  uniform : ∀ frame ∈ frames, ∃ header : Layer3Header, IsFrame header frame ∧ header.shape = shape
  ended : IsTrailer trailer

/-- The walk measures exactly the framed bytes. -/
theorem durationFrom_value_iff (hoffset : offset ≤ bytes.toList.length) {ms : Nat} :
    durationFrom bytes offset = some (.value ms) ↔
      ∃ shape frames trailer, Framed (bytes.toList.drop offset) shape frames trailer ∧
        (1000 * (frames.length * shape.2)) ⌈/⌉ shape.1 = ms := by
  have hstart := Walked.start hoffset
  rw [durationFrom_iff hoffset]
  constructor
  · rintro ⟨r, hends, hvalue⟩
    obtain ⟨s, rfl, hduration⟩ := bind_eq_value_iff.mp hvalue
    obtain ⟨frames, trailer, hparts, hended, hwalked, hcount, _, hall⟩ :=
      frames_of_ends bytes.bounded hends hstart rfl
    change s.frameCount = 0 + frames.length at hcount
    cases hshape : s.streamShape with
    | none =>
        -- Nothing was walked, so there is no rate to divide by.
        rw [walkedDuration, if_pos (hwalked.unmeasured hshape).1] at hduration
        cases hduration
    | some shape =>
        rw [walkedDuration_eq bytes.bounded hwalked hshape, hcount, Nat.zero_add] at hduration
        have hpositive := (hwalked.measured shape.1 shape.2 hshape).1
        refine ⟨shape, frames, trailer, ⟨hparts, ?_, ?_, hended⟩, Outcome.value.inj hduration⟩
        · rintro rfl
          rw [hcount] at hpositive
          exact absurd hpositive (Nat.lt_irrefl 0)
        · intro frame hmem
          obtain ⟨header, hframe, hsome⟩ := hall frame hmem
          exact ⟨header, hframe, Option.some.inj (hsome.symm.trans hshape)⟩
  · rintro ⟨shape, frames, trailer, hframed, rfl⟩
    obtain ⟨s, hends, hwalked, hcount, hshape⟩ := ends_of_frames bytes.bounded hframed.ended
      hframed.uniform hstart (fun _ hsome => nomatch hsome) hframed.parts
    change s.frameCount = 0 + frames.length at hcount
    rw [if_neg hframed.nonEmpty] at hshape
    refine ⟨_, hends, ?_⟩
    rw [value_bind, walkedDuration_eq bytes.bounded hwalked hshape, hcount, Nat.zero_add]

/-- The walk returns a duration or the one error. -/
theorem durationFrom_cases (hoffset : offset ≤ bytes.toList.length) :
    (∃ ms, durationFrom bytes offset = some (.value ms)) ∨
      durationFrom bytes offset = some (.error .invalidMp3) := by
  obtain ⟨r, hr⟩ := durationFrom_isSome hoffset
  obtain ⟨walked, hends, hvalue⟩ := (durationFrom_iff hoffset).mp hr
  have hsafe : walked.Safe := by
    refine hends.safe (Walked bytes.toList) ?_ ?_ (Walked.start hoffset)
    · intro s hwalked
      rcases walkTurn_cases bytes.bounded hwalked with ⟨_, heq⟩ | ⟨_, _, _, heq⟩ | ⟨heq, _⟩
      · rw [heq]
        trivial
      · rw [heq]
        trivial
      · rw [heq]
        trivial
    · intro s s' hwalked hturn
      exact (walkTurn_again bytes.bounded hwalked hturn).1
  rcases safe_iff.mp hsafe with ⟨s, rfl⟩ | ⟨e, rfl⟩
  · obtain ⟨_, _, _, _, hwalked, _⟩ :=
      frames_of_ends bytes.bounded hends (Walked.start hoffset) rfl
    rw [value_bind] at hvalue
    cases hshape : s.streamShape with
    | none =>
        rw [walkedDuration, if_pos (hwalked.unmeasured hshape).1] at hvalue
        exact .inr (hvalue ▸ hr)
    | some shape =>
        rw [walkedDuration_eq bytes.bounded hwalked hshape] at hvalue
        exact .inl ⟨_, hvalue ▸ hr⟩
  · cases e
    obtain rfl : .error .invalidMp3 = r := hvalue
    exact .inr hr

/-- Behind the tag the parts of an MP3 are framed. -/
theorem layout_iff_framed {ms : Nat} (tag : Option Id3v2Tag) {rest : List UInt8}
    (hbytes : bytes.toList = (tag.map Id3v2Tag.bytes).getD [] ++ rest) :
    (∃ layout : Mp3Layout, layout.tag = tag ∧ layout.bytes = bytes.toList ∧
        layout.durationMs = ms) ↔
      ∃ shape frames trailer, Framed rest shape frames trailer ∧
        (1000 * (frames.length * shape.2)) ⌈/⌉ shape.1 = ms := by
  constructor
  · rintro ⟨⟨_, shape, frames, trailer, hnonEmpty, huniform, hended⟩, rfl, hparts, rfl⟩
    refine ⟨shape, frames, trailer, ⟨?_, hnonEmpty, huniform, hended⟩, rfl⟩
    exact (List.append_cancel_left (hparts.trans hbytes)).symm
  · rintro ⟨shape, frames, trailer, hframed, rfl⟩
    refine ⟨⟨tag, shape, frames, trailer, hframed.nonEmpty, hframed.uniform, hframed.ended⟩, rfl,
      ?_, rfl⟩
    exact (congrArg (_ ++ ·) hframed.parts.symm).trans hbytes.symm

/-- The parts of an MP3 start with a frame where they have no tag, so never as a tag does. -/
theorem Mp3Layout.tag_isSome {layout : Mp3Layout} (h : ascii "ID3" <+: layout.bytes) :
    ∃ tag, layout.tag = some tag := by
  cases htag : layout.tag with
  | some tag => exact ⟨tag, rfl⟩
  | none =>
      exfalso
      cases hframes : layout.frames with
      | nil => exact layout.nonEmpty hframes
      | cons frame frames =>
          obtain ⟨header, hframe, _⟩ := layout.uniform frame (hframes ▸ List.mem_cons_self)
          have hbytes : layout.bytes = frame ++ (frames.flatten ++ layout.trailer) := by
            rw [bytes, tagBytes, htag, hframes, List.flatten_cons, List.append_assoc]
            rfl
          rw [hbytes] at h
          exact not_startsFrame_of_prefix rfl (by decide) h (hframe.starts _)

theorem Mp3Layout.tag_prefix (layout : Mp3Layout) {tag : Id3v2Tag} (h : layout.tag = some tag) :
    tag.bytes <+: layout.bytes := by
  rw [bytes, tagBytes, h]
  exact List.prefix_append _ _

theorem Id3v2Tag.id_prefix (tag : Id3v2Tag) : ascii "ID3" <+: tag.bytes := List.prefix_append _ _

end Duration

/-- `mp3_duration_ms` ends with a duration or its one error. -/
theorem mp3DurationMs_cases (bytes : ByteSlice) :
    (∃ ms, mp3DurationMs bytes = some (.value ms)) ∨
      mp3DurationMs bytes = some (.error .invalidMp3) := by
  rcases id3v2End_cases bytes.toList with ⟨_, hend⟩ | ⟨tag, htag, hend⟩ | ⟨hend, _, _⟩
  · have hfrom : mp3DurationMs bytes = durationFrom bytes 0 := by
      rw [mp3DurationMs, hend]
      rfl
    rw [hfrom]
    exact durationFrom_cases (Nat.zero_le _)
  · have hfrom : mp3DurationMs bytes = durationFrom bytes tag.bytes.length := by
      rw [mp3DurationMs, hend]
      rfl
    rw [hfrom]
    exact durationFrom_cases htag.length_le
  · right
    rw [mp3DurationMs, hend]

/-- `mp3_duration_ms` measures exactly the MP3s: an ID3v2 tag at most, whole Layer III frames of one
shape, and the end, an ID3v1 tag or an APE tag. It returns their duration rounded up, and
otherwise its error; its loop ends, and no operation of it panics. -/
theorem mp3DurationMs_exact (bytes : ByteSlice) :
    (∀ ms, mp3DurationMs bytes = some (.value ms) ↔
      ∃ layout : Mp3Layout, layout.bytes = bytes.toList ∧ layout.durationMs = ms) ∧
    ((∃ ms, mp3DurationMs bytes = some (.value ms)) ∨
      mp3DurationMs bytes = some (.error .invalidMp3)) := by
  refine ⟨fun ms => ?_, mp3DurationMs_cases bytes⟩
  rcases id3v2End_cases bytes.toList with ⟨hid, hend⟩ | ⟨tag, htag, hend⟩ | ⟨hend, hid, hbroken⟩
  · -- Without a tag the walk starts at the first byte.
    have hfrom : mp3DurationMs bytes = durationFrom bytes 0 := by
      rw [mp3DurationMs, hend]
      rfl
    rw [hfrom, durationFrom_value_iff (Nat.zero_le _), List.drop_zero, ← layout_iff_framed none rfl]
    refine exists_congr fun layout => ⟨fun h => h.2, fun h => ⟨?_, h⟩⟩
    cases hlayout : layout.tag with
    | none => rfl
    | some tag =>
        have hstarts := tag.id_prefix.trans (layout.tag_prefix hlayout)
        exact absurd (h.1 ▸ hstarts) hid
  · -- Behind a tag the walk starts where the tag ends.
    have hoffset := htag.length_le
    have hfrom : mp3DurationMs bytes = durationFrom bytes tag.bytes.length := by
      rw [mp3DurationMs, hend]
      rfl
    obtain ⟨rest, hrest⟩ := htag
    rw [hfrom, durationFrom_value_iff hoffset, ← hrest, List.drop_left,
      ← layout_iff_framed (some tag) hrest.symm, hrest]
    refine exists_congr fun layout => ⟨fun h => h.2, fun h => ⟨?_, h⟩⟩
    obtain ⟨other, hother⟩ : ∃ other, layout.tag = some other := by
      apply Mp3Layout.tag_isSome
      rw [h.1, ← hrest]
      exact tag.id_prefix.trans (List.prefix_append _ _)
    have hstarts : other.bytes <+: bytes.toList := h.1 ▸ layout.tag_prefix hother
    rw [hother, Id3v2Tag.unique hstarts ⟨rest, hrest⟩]
  · -- A broken tag is refused, and is the start of no MP3.
    have hfrom : mp3DurationMs bytes = some (.error .invalidMp3) := by
      rw [mp3DurationMs, hend]
    rw [hfrom]
    constructor
    · intro herror
      cases herror
    · rintro ⟨layout, hbytes, _⟩
      obtain ⟨tag, htag⟩ := @Mp3Layout.tag_isSome layout (hbytes ▸ hid)
      exact absurd (hbytes ▸ layout.tag_prefix htag) (hbroken tag)

end Waveform.Audio
