import Mathlib.Tactic.NormNum
import OptionsProtocol.Oracle.Pyth
import OptionsProtocol.Runtime.Ed25519

/-!
# The format of price updates

Pyth publishes a price as the encoding of a `PriceUpdateV2` record: a discriminator, the write authority,
the verification level, and the price message. The verification level takes two bytes or one, and so
decides where the message lies. The oracle finds it by the first byte alone, at fixed offsets: it reads
back every encoding, and it also accepts what an encoding becomes when the tag `1` is overwritten by a tag
the format does not have.
-/

namespace OptionsProtocol

namespace Oracle

open Except Bytes

/-! ## Records -/

/-- `Partial(num_signatures)` and `Full`. -/
inductive VerificationLevel where
  | partially (numSignatures : UInt8)
  | full
  deriving DecidableEq

def VerificationLevel.encode : VerificationLevel → List UInt8
  | partially numSignatures => [0, numSignatures]
  | full => [1]

/-- The leading fields of the price message. -/
structure PriceMessage where
  feedId : Vector UInt8 32
  price : Int64
  conf : UInt64
  exponent : Int32
  publishTime : Int64

def PriceMessage.encode (m : PriceMessage) : List UInt8 :=
  m.feedId.toList ++ (leBytes 8 m.price.toBitVec.toNat ++ (leBytes 8 m.conf.toBitVec.toNat ++
    (leBytes 4 m.exponent.toBitVec.toNat ++ leBytes 8 m.publishTime.toBitVec.toNat)))

/-- What the oracle takes from it. -/
def PriceMessage.data (m : PriceMessage) : PythPriceData :=
  ⟨m.price.toInt, m.conf.toNat, m.exponent.toInt, m.publishTime.toInt⟩

structure PriceUpdateV2 where
  writeAuthority : Pubkey
  verificationLevel : VerificationLevel
  priceMessage : PriceMessage

/-- A message behind the given tag bytes. -/
def frame (writeAuthority : Pubkey) (tag : List UInt8) (m : PriceMessage) : List UInt8 :=
  PRICE_UPDATE_V2_DISCRIMINATOR ++ (writeAuthority.toBytes ++ (tag ++ m.encode))

/-- The encoding of a record, up to the last field the oracle reads. -/
def PriceUpdateV2.encode (u : PriceUpdateV2) : List UInt8 :=
  frame u.writeAuthority u.verificationLevel.encode u.priceMessage

/-! ## The message -/

private theorem bits64 : 2 ^ 64 = 256 ^ 8 := by norm_num

private theorem bits32 : 2 ^ 32 = 256 ^ 4 := by norm_num

private theorem bits256 : 2 ^ 256 = 256 ^ 32 := by norm_num

@[simp] theorem PriceMessage.length_encode (m : PriceMessage) : m.encode.length = 60 := by
  simp [encode]

/-- The fields of a message that begins the rest of the data. -/
structure ReadsMessage (data : List UInt8) (i : ℕ) (m : PriceMessage) : Prop where
  feedId : slice data i (i + FEED_ID_LEN) = some m.feedId.toList
  price : readI64 data (i + FEED_ID_LEN) = some m.price.toInt
  conf : readU64 data (i + FEED_ID_LEN + 8) = some m.conf.toNat
  exponent : readI32 data (i + FEED_ID_LEN + 16) = some m.exponent.toInt
  publishTime : readI64 data (i + FEED_ID_LEN + 20) = some m.publishTime.toInt

theorem PriceMessage.reads {m : PriceMessage} {data rest : List UInt8} {i : ℕ}
    (h : data.drop i = m.encode ++ rest) (hi : i + 60 ≤ data.length) : ReadsMessage data i m := by
  simp only [encode, List.append_assoc] at h
  have hprice := drop_of_drop h (b := i + FEED_ID_LEN) (by simp [FEED_ID_LEN])
  have hconf := drop_of_drop hprice (b := i + FEED_ID_LEN + 8) (by simp)
  have hexponent := drop_of_drop hconf (b := i + FEED_ID_LEN + 16) (by simp)
  have htime := drop_of_drop hexponent (b := i + FEED_ID_LEN + 20) (by simp)
  have hlen : i + FEED_ID_LEN + 28 ≤ data.length := hi
  constructor
  · exact slice_of_drop h (by omega) (by simp [FEED_ID_LEN])
  · rw [readI64, slice_of_drop hprice (by omega) (by simp), Option.map_some,
      ofLeBytesSigned_word bits64]
    rfl
  · rw [readU64, slice_of_drop hconf (by omega) (by simp), Option.map_some, ofLeBytes_word bits64]
    rfl
  · rw [readI32, slice_of_drop hexponent (by omega) (by simp), Option.map_some,
      ofLeBytesSigned_word bits32]
    rfl
  · rw [readI64, slice_of_drop htime (by omega) (by simp), Option.map_some,
      ofLeBytesSigned_word bits64]
    rfl

theorem exists_message {data : List UInt8} {i : ℕ} (h : i + 60 ≤ data.length) :
    ∃ (m : PriceMessage) (rest : List UInt8), data.drop i = m.encode ++ rest := by
  have hslice : ∀ {a b : ℕ}, a ≤ b → b ≤ data.length →
      ∃ cs, slice data a b = some cs ∧ cs.length = b - a := exists_slice
  obtain ⟨feed, hfeed, hfeedlen⟩ := hslice (Nat.le_add_right i 32) (by omega)
  obtain ⟨price, hprice, hpricelen⟩ := hslice (Nat.le_add_right (i + 32) 8) (by omega)
  obtain ⟨conf, hconf, hconflen⟩ := hslice (Nat.le_add_right (i + 40) 8) (by omega)
  obtain ⟨expo, hexpo, hexpolen⟩ := hslice (Nat.le_add_right (i + 48) 4) (by omega)
  obtain ⟨time, htime, htimelen⟩ := hslice (Nat.le_add_right (i + 52) 8) (by omega)
  obtain ⟨p, rfl⟩ := exists_word bits64 (hpricelen.trans (by omega))
  obtain ⟨c, rfl⟩ := exists_word bits64 (hconflen.trans (by omega))
  obtain ⟨e, rfl⟩ := exists_word bits32 (hexpolen.trans (by omega))
  obtain ⟨t, rfl⟩ := exists_word bits64 (htimelen.trans (by omega))
  refine ⟨⟨⟨feed.toArray, by simpa using hfeedlen⟩, ⟨⟨p⟩⟩, ⟨c⟩, ⟨⟨e⟩⟩, ⟨⟨t⟩⟩⟩, data.drop (i + 60), ?_⟩
  rw [drop_eq_of_slice hfeed, drop_eq_of_slice hprice, drop_eq_of_slice hconf, drop_eq_of_slice hexpo,
    drop_eq_of_slice htime]
  simp [PriceMessage.encode, Int64.toBitVec, Int32.toBitVec]

/-! ## What the parser reads -/

/-- Where the message lies behind a verification level that starts with this byte. -/
def messageStart (variant : UInt8) : ℕ := if variant = 0 then 42 else 41

/-- Bytes the parser takes for a verification level that starts with this byte. -/
structure IsTag (variant : UInt8) (tag : List UInt8) : Prop where
  head : tag[0]? = some variant
  length : 40 + tag.length = messageStart variant

theorem VerificationLevel.isTag (level : VerificationLevel) :
    ∃ variant ≤ 1, IsTag variant level.encode := by
  cases level with
  | partially n => exact ⟨0, by decide, rfl, rfl⟩
  | full => exact ⟨1, by decide, rfl, rfl⟩

variable {owner writeAuthority : Pubkey} {data rest tag : List UInt8} {feedId : Vector UInt8 32}
  {variant : UInt8} {m : PriceMessage} {r : PythPriceData}

/-- What the checks on the length and on the discriminator establish. -/
structure Framed (data : List UInt8) (variant : UInt8) : Prop where
  length : 101 ≤ data.length
  discriminator : data.take DISCRIMINATOR_LEN = PRICE_UPDATE_V2_DISCRIMINATOR
  level : data[DISCRIMINATOR_LEN + PUBKEY_LEN]? = some variant
  fits : messageStart variant + MIN_PRICE_MSG_BYTES ≤ data.length

theorem Framed.parse_eq (h : Framed data variant) (hm : ReadsMessage data (messageStart variant) m) :
    parsePythPriceUpdate ⟨owner, data⟩ owner feedId = (do
      require (m.feedId.toList = feedId.toList) (.error .feedIdMismatch)
      require (0 < m.price.toInt) (.error .invalidPrice)
      pure m.data) := by
  have hstart : (if variant = 0 then DISCRIMINATOR_LEN + PUBKEY_LEN + 2 else
      DISCRIMINATOR_LEN + PUBKEY_LEN + 1) = messageStart variant := rfl
  rw [parsePythPriceUpdate, require_bind_of rfl]
  simp only
  rw [require_bind_of h.length, require_bind_of h.discriminator, fromOption_bind_of h.level, hstart,
    require_bind_of h.fits, fromOption_bind_of hm.feedId, fromOption_bind_of hm.price,
    fromOption_bind_of hm.conf, fromOption_bind_of hm.exponent, fromOption_bind_of hm.publishTime]
  rfl

theorem Framed.parse_eq_ok (h : Framed data variant) (hm : ReadsMessage data (messageStart variant) m) :
    parsePythPriceUpdate ⟨owner, data⟩ owner feedId = .ok r ↔
      m.feedId = feedId ∧ 0 < m.price.toInt ∧ m.data = r := by
  rw [h.parse_eq hm, require_bind_eq_ok, require_bind_eq_ok, pure_eq_ok, Vector.toList_inj]

theorem framed_of_parse (h : parsePythPriceUpdate ⟨owner, data⟩ owner feedId = .ok r) :
    ∃ variant, Framed data variant := by
  rw [parsePythPriceUpdate, require_bind_of rfl] at h
  simp only [require_bind_eq_ok, fromOption_bind_eq_ok] at h
  obtain ⟨hlength, hdisc, variant, hlevel, hfits, -⟩ := h
  exact ⟨variant, hlength, hdisc, hlevel, hfits⟩

/-! ## Frames -/

theorem framed_frame (htag : IsTag variant tag) :
    Framed (frame writeAuthority tag m ++ rest) variant ∧
      ReadsMessage (frame writeAuthority tag m ++ rest) (messageStart variant) m := by
  have hdata : frame writeAuthority tag m ++ rest =
      PRICE_UPDATE_V2_DISCRIMINATOR ++ (writeAuthority.toBytes ++ (tag ++ (m.encode ++ rest))) := by
    simp only [frame, List.append_assoc]
  have hstart : 41 ≤ messageStart variant ∧ messageStart variant = 40 + tag.length := by
    refine ⟨?_, htag.length.symm⟩
    rw [messageStart]
    split <;> omega
  have hlength : (frame writeAuthority tag m ++ rest).length = messageStart variant + 60 + rest.length := by
    simp [hdata, hstart.2, PRICE_UPDATE_V2_DISCRIMINATOR]
    omega
  have hauthority : (frame writeAuthority tag m ++ rest).drop 8 =
      writeAuthority.toBytes ++ (tag ++ (m.encode ++ rest)) := by
    rw [hdata, List.drop_left']
    rfl
  have hlevel := drop_of_drop (b := 40) hauthority (by simp)
  have hmessage := drop_of_drop (b := messageStart variant) hlevel (by omega)
  refine ⟨⟨by omega, ?_, ?_, by rw [hlength]; exact Nat.le_add_right _ _⟩,
    PriceMessage.reads hmessage (by omega)⟩
  · rw [hdata, List.take_left']
    rfl
  · have hpos : 0 < tag.length := by omega
    have hhead : (frame writeAuthority tag m ++ rest)[40 + 0]? = tag[0]? := by
      rw [← List.getElem?_drop, hlevel, List.getElem?_append_left hpos]
    exact hhead.trans htag.head

/-- **What passes the checks is a frame**, behind one byte or two. -/
theorem Framed.exists_frame (h : Framed data variant) :
    ∃ writeAuthority tag m rest, data = frame writeAuthority tag m ++ rest ∧ IsTag variant tag := by
  have hstart : 41 ≤ messageStart variant := by
    rw [messageStart]
    split <;> omega
  have hfits : messageStart variant + 60 ≤ data.length := h.fits
  have hslice : ∀ {a b : ℕ}, a ≤ b → b ≤ data.length →
      ∃ cs, slice data a b = some cs ∧ cs.length = b - a := exists_slice
  obtain ⟨auth, hauth, hauthlen⟩ := hslice (by norm_num : 8 ≤ 40) (by omega)
  obtain ⟨tag, htag, htaglen⟩ := hslice (by omega : 40 ≤ messageStart variant) (by omega)
  obtain ⟨m, rest, hm⟩ := exists_message hfits
  obtain ⟨k, rfl⟩ : ∃ k : Pubkey, k.toBytes = auth := exists_word bits256 (hauthlen.trans (by omega))
  refine ⟨k, tag, m, rest, ?_, ?_, by omega⟩
  · calc data = data.take 8 ++ data.drop 8 := (List.take_append_drop 8 data).symm
      _ = PRICE_UPDATE_V2_DISCRIMINATOR ++ (k.toBytes ++ (tag ++ (m.encode ++ rest))) := by
        rw [← h.discriminator, drop_eq_of_slice hauth, drop_eq_of_slice htag, hm]
        rfl
      _ = frame k tag m ++ rest := by simp only [frame, List.append_assoc]
  · have hpos : 0 < tag.length := by omega
    have hlevel : data[40 + 0]? = some variant := h.level
    rwa [← List.getElem?_drop, drop_eq_of_slice htag, List.getElem?_append_left hpos] at hlevel

/-- **What the parser accepts.** -/
theorem parsePythPriceUpdate_eq_ok : parsePythPriceUpdate ⟨owner, data⟩ owner feedId = .ok r ↔
    ∃ writeAuthority variant tag m rest, data = frame writeAuthority tag m ++ rest ∧
      IsTag variant tag ∧ m.feedId = feedId ∧ 0 < m.price.toInt ∧ m.data = r := by
  constructor
  · intro h
    obtain ⟨variant, hframed⟩ := framed_of_parse h
    obtain ⟨k, tag, m, rest, rfl, htag⟩ := hframed.exists_frame
    have hm : ReadsMessage (frame k tag m ++ rest) (messageStart variant) m := (framed_frame htag).2
    exact ⟨k, variant, tag, m, rest, rfl, htag, (hframed.parse_eq_ok hm).mp h⟩
  · rintro ⟨k, variant, tag, m, rest, rfl, htag, h⟩
    obtain ⟨hframed, hm⟩ : Framed (frame k tag m ++ rest) variant ∧
        ReadsMessage (frame k tag m ++ rest) (messageStart variant) m := framed_frame htag
    exact (hframed.parse_eq_ok hm).mpr h

/-- A message with a negative exponent. -/
def sampleMessage : PriceMessage where
  feedId := Vector.replicate 32 7
  price := 16297000
  conf := 1500
  exponent := -5
  publishTime := 1700000000

/-! ## Round trip -/

/-- **Parsing undoes the encoding.** Whatever the write authority, the verification level and the bytes that
follow, the parser returns the fields of a message with a positive price, for its own feed and no other. -/
theorem parse_encode (owner : Pubkey) (u : PriceUpdateV2) (rest : List UInt8)
    (hprice : 0 < u.priceMessage.price.toInt) :
    parsePythPriceUpdate ⟨owner, u.encode ++ rest⟩ owner u.priceMessage.feedId
        = .ok u.priceMessage.data ∧
      ∀ feedId ≠ u.priceMessage.feedId,
        parsePythPriceUpdate ⟨owner, u.encode ++ rest⟩ owner feedId
          = .error (.error .feedIdMismatch) := by
  obtain ⟨variant, -, htag⟩ := u.verificationLevel.isTag
  obtain ⟨hframed, hm⟩ : Framed (u.encode ++ rest) variant ∧
      ReadsMessage (u.encode ++ rest) (messageStart variant) u.priceMessage := framed_frame htag
  constructor
  · exact (hframed.parse_eq_ok hm).mpr ⟨rfl, hprice, rfl⟩
  · intro feedId hne
    have hfeed : ¬u.priceMessage.feedId.toList = feedId.toList :=
      fun h ↦ hne (Vector.toList_inj.mp h).symm
    refine (hframed.parse_eq hm).trans ?_
    rw [require, if_neg hfeed]
    rfl

theorem parse_encode_sample :
    parsePythPriceUpdate ⟨5, (⟨6, .partially 9, sampleMessage⟩ : PriceUpdateV2).encode ++ []⟩ 5
        (Vector.replicate 32 7) = .ok ⟨16297000, 1500, -5, 1700000000⟩ ∧
      parsePythPriceUpdate ⟨5, (⟨6, .partially 9, sampleMessage⟩ : PriceUpdateV2).encode ++ []⟩ 5
        (Vector.replicate 32 8) = .error (.error .feedIdMismatch) := by
  have h := parse_encode 5 ⟨6, .partially 9, sampleMessage⟩ [] (by decide)
  exact ⟨h.1, h.2 (Vector.replicate 32 8) (by decide)⟩

/-! ## Soundness -/

/-- The data is the encoding of a record of that feed with a positive price, up to the fields read and
followed by anything, and the result is what the record says. -/
def Documents (data : List UInt8) (feedId : Vector UInt8 32) (r : PythPriceData) : Prop :=
  ∃ (u : PriceUpdateV2) (rest : List UInt8), data = u.encode ++ rest ∧ u.priceMessage.feedId = feedId ∧
    u.priceMessage.data = r ∧ 0 < r.price

/-- The data is such an encoding with verification level `Full`, except that the tag is one the format does
not have. -/
def Overwritten (data : List UInt8) (feedId : Vector UInt8 32) : Prop :=
  ∃ (writeAuthority : Pubkey) (t : UInt8) (m : PriceMessage) (rest : List UInt8), 1 < t ∧
    data = frame writeAuthority [t] m ++ rest ∧ m.feedId = feedId ∧ 0 < m.price.toInt

/-- The tags the parser takes are the documented ones, and single bytes beyond them. -/
theorem IsTag.cases (h : IsTag variant tag) :
    (∃ level : VerificationLevel, tag = level.encode) ∨ 1 < variant ∧ tag = [variant] := by
  obtain ⟨hhead, hlength⟩ := h
  by_cases hzero : variant = 0
  · subst hzero
    have htwo : tag.length = 2 := by
      rw [messageStart, if_pos rfl] at hlength
      omega
    obtain ⟨v, n, rfl⟩ := List.length_eq_two.mp htwo
    obtain rfl : v = 0 := Option.some.inj hhead
    exact .inl ⟨.partially n, rfl⟩
  · have hone : tag.length = 1 := by
      rw [messageStart, if_neg hzero] at hlength
      omega
    obtain ⟨v, rfl⟩ := List.length_eq_one_iff.mp hone
    obtain rfl : v = variant := Option.some.inj hhead
    rcases Nat.lt_or_ge 1 v.toNat with hlt | hle
    · exact .inr ⟨hlt, rfl⟩
    · obtain rfl : v = 1 := by
        have hne : v.toNat ≠ 0 := fun h0 ↦ hzero (UInt8.toNat_inj.mp h0)
        exact UInt8.toNat_inj.mp (by simp; omega)
      exact .inl ⟨.full, rfl⟩

theorem isTag_singleton {t : UInt8} (ht : 1 < t) : IsTag t [t] := by
  have hne : t ≠ 0 := by
    rintro rfl
    exact absurd ht (by decide)
  exact ⟨rfl, (if_neg hne).symm⟩

theorem level_frame (htag : IsTag variant tag) :
    (frame writeAuthority tag m ++ rest)[40]? = some variant :=
  (framed_frame htag).1.level

/-- **What the parser accepts is documented, unless the tag was overwritten.** -/
theorem parse_documented_iff (owner : Pubkey) (data : List UInt8) (feedId : Vector UInt8 32) :
    (∀ r, parsePythPriceUpdate ⟨owner, data⟩ owner feedId = .ok r → Documents data feedId r) ↔
      ¬Overwritten data feedId := by
  constructor
  · rintro h ⟨k, t, m, rest, ht, rfl, hfeed, hprice⟩
    have htag := isTag_singleton ht
    have hok : parsePythPriceUpdate ⟨owner, frame k [t] m ++ rest⟩ owner feedId = .ok m.data :=
      parsePythPriceUpdate_eq_ok.mpr ⟨k, t, [t], m, rest, rfl, htag, hfeed, hprice, rfl⟩
    obtain ⟨u, rest', hu, -⟩ := h _ hok
    obtain ⟨variant, hle, htag'⟩ := u.verificationLevel.isTag
    have hlevel : (frame k [t] m ++ rest)[40]? = some t := level_frame htag
    rw [hu, PriceUpdateV2.encode, level_frame htag', Option.some.injEq] at hlevel
    subst hlevel
    exact absurd ht (UInt8.not_lt.mpr hle)
  · intro h r hok
    obtain ⟨k, variant, tag, m, rest, rfl, htag, hfeed, hprice, rfl⟩ :=
      parsePythPriceUpdate_eq_ok.mp hok
    rcases htag.cases with ⟨level, rfl⟩ | ⟨hlt, rfl⟩
    · exact ⟨⟨k, level, m⟩, rest, rfl, hfeed, rfl, hprice⟩
    · exact absurd ⟨k, variant, m, rest, hlt, rfl, hfeed, hprice⟩ h

theorem overwritten_tag_accepted :
    parsePythPriceUpdate ⟨5, frame 6 [2] sampleMessage⟩ 5 (Vector.replicate 32 7)
        = .ok ⟨16297000, 1500, -5, 1700000000⟩ ∧
      ¬Documents (frame 6 [2] sampleMessage) (Vector.replicate 32 7) ⟨16297000, 1500, -5, 1700000000⟩ := by
  refine ⟨by decide +kernel, ?_⟩
  rintro ⟨u, rest, hu, -⟩
  obtain ⟨variant, hle, htag⟩ := u.verificationLevel.isTag
  have hlevel : (frame 6 [2] sampleMessage)[40]? = some variant := by
    rw [hu]
    exact level_frame htag
  have htwo : (frame 6 [2] sampleMessage)[40]? = some 2 := by decide +kernel
  rw [htwo, Option.some.injEq] at hlevel
  subst hlevel
  exact absurd hle (by decide)

end Oracle

end OptionsProtocol
