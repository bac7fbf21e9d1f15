import CpuScheduler.L6Server.Invocations

/-!
# Decoding a request

A request in the format of RFC 7252: a fixed header, the token, the options in
the order of their numbers, each with the distance to the number before, and
the payload behind a marker. `encode` writes it, the server reads it.

The extension bytes of an option's distance and length shift everything behind
them, so the options are followed one by one: `Follows` relates the variables
of the option loop to the options read so far.
-/
namespace CpuScheduler.L6

open Word L3

/-! ## The format -/

/-- The 4-bit field of a distance or a length, and the bytes that extend it. -/
def encodeField (n : Nat) : Nat × List UInt8 :=
  if n < 13 then (n, [])
  else if n < 269 then (13, [UInt8.ofNat (n - 13)])
  else (14, [UInt8.ofNat ((n - 269) / 256), UInt8.ofNat (n - 269)])

/-- What a field can hold. -/
def MAX_FIELD : Nat := 65535 + 269

def encodeOption (delta : Nat) (value : List UInt8) : List UInt8 :=
  UInt8.ofNat (16 * (encodeField delta).1 + (encodeField value.length).1) ::
    ((encodeField delta).2 ++ ((encodeField value.length).2 ++ value))

structure RequestOption where
  number : Nat
  value : List UInt8
  number_le : number ≤ 65535
  value_le : value.length ≤ 65535

/-- The options behind an option with number `number`. -/
def encodeOptions : Nat → List RequestOption → List UInt8
  | _, [] => []
  | number, o :: os => encodeOption (o.number - number) o.value ++ encodeOptions o.number os

/-- The number of the last option. -/
def lastNumber : Nat → List RequestOption → Nat
  | number, [] => number
  | _, o :: os => lastNumber o.number os

/-- The options are in the order of their numbers, from `number` on. -/
def Ordered (number : Nat) (os : List RequestOption) : Prop :=
  (∀ o ∈ os, number ≤ o.number) ∧ os.Pairwise fun a b => a.number ≤ b.number

/-- The bytes are at index `offset`. -/
def BytesAt (udpPayload : Nat → UInt8) (offset : Nat) (bytes : List UInt8) : Prop :=
  ∀ k < bytes.length, udpPayload (offset + k) = bytes.getD k 0

section
variable {udpPayload : Nat → UInt8} {offset : Nat} {a b : List UInt8} {x : UInt8}

theorem bytesAt_cons : BytesAt udpPayload offset (x :: a) ↔ udpPayload offset = x ∧ BytesAt udpPayload (offset + 1) a := by
  constructor
  · intro h
    refine ⟨h 0 (Nat.succ_pos _), fun k hk => ?_⟩
    rw [Nat.add_assoc, Nat.add_comm 1 k]
    exact h (k + 1) (Nat.succ_lt_succ hk)
  · rintro ⟨hx, ha⟩ k hk
    cases k with
    | zero => exact hx
    | succ k =>
      rw [Nat.add_comm k 1, ← Nat.add_assoc, Nat.add_comm 1 k]
      exact ha k (Nat.lt_of_succ_lt_succ hk)

theorem bytesAt_append :
    BytesAt udpPayload offset (a ++ b) ↔ BytesAt udpPayload offset a ∧ BytesAt udpPayload (offset + a.length) b := by
  induction a generalizing offset with
  | nil => simp [BytesAt]
  | cons x a ih =>
    rw [List.cons_append, bytesAt_cons, bytesAt_cons, ih, and_assoc, List.length_cons]
    rw [show offset + 1 + a.length = offset + (a.length + 1) by omega]

theorem BytesAt.ofInitial (h : BytesAt udpPayload offset b) (hab : a <+: b) : BytesAt udpPayload offset a := by
  obtain ⟨c, rfl⟩ := hab
  exact (bytesAt_append.mp h).1

end

/-! ## One option -/

theorem nibbles : ∀ d l : Fin 16, (((UInt8.ofNat (16 * d.val + l.val) &&& 0b11110000) >>> 4).toNat = d.val) ∧
    (UInt8.ofNat (16 * d.val + l.val) &&& 0b1111).toNat = l.val := by
  decide +kernel

theorem encodeField_lt (n : Nat) : (encodeField n).1 < 15 := by
  unfold encodeField
  split
  · omega
  · split <;> simp

theorem numExtendedBytes_encodeField (n : Nat) :
    numExtendedBytes (encodeField n).1 = some (encodeField n).2.length := by
  unfold encodeField numExtendedBytes
  split
  · rename_i hn
    rw [if_neg (by simp only; omega), if_neg (by simp only; omega), if_neg (by simp only; omega)]
    rfl
  · split <;> rfl

section
variable {udpPayload : Nat → UInt8} {udpPayloadSize offset number : Nat}

/-- A field is read back, with the bytes that extend it. -/
theorem readExtended_encodeField {n : Nat} (hn : n ≤ MAX_FIELD)
    (hbytes : BytesAt udpPayload (offset + 1) (encodeField n).2) :
    (readExtended udpPayload (encodeField n).1 offset).val = (n, offset + (encodeField n).2.length) := by
  unfold MAX_FIELD at hn
  unfold readExtended
  unfold encodeField at hbytes ⊢
  split
  · rename_i hsmall
    rw [if_neg (by simp only; omega), if_neg (by simp only; omega)]
    rfl
  · split
    · rename_i hmiddle
      rw [if_neg ‹_›, if_pos hmiddle] at hbytes
      have hbyte : udpPayload (offset + 1) = UInt8.ofNat (n - 13) := (bytesAt_cons.mp hbytes).1
      simp only [if_true, Traced.val_bind, Traced.val_pure, readByte, hbyte, UInt8.toNat_ofNat', List.length_singleton]
      congr 1
      omega
    · rename_i hlarge
      rw [if_neg ‹_›, if_neg hlarge] at hbytes
      obtain ⟨hhigh, hrest⟩ := bytesAt_cons.mp hbytes
      have hlow : udpPayload (offset + 2) = UInt8.ofNat (n - 269) := (bytesAt_cons.mp hrest).1
      simp only [Traced.val_ite, Traced.val_bind, Traced.val_pure, readByte, hhigh, hlow]
      rw [if_neg (by decide), if_pos trivial, be16_littleEndian (by omega)]
      congr 1
      omega

/-- The bytes in front of the value of an option. -/
def fieldBytes (delta length : Nat) : List UInt8 :=
  UInt8.ofNat (16 * (encodeField delta).1 + (encodeField length).1) :: ((encodeField delta).2 ++ (encodeField length).2)

theorem encodeOption_eq (delta : Nat) (value : List UInt8) :
    encodeOption delta value = fieldBytes delta value.length ++ value := by
  simp [encodeOption, fieldBytes]

theorem nibbles_fieldBytes (delta length : Nat) :
    (((UInt8.ofNat (16 * (encodeField delta).1 + (encodeField length).1) &&& 0b11110000) >>> 4).toNat =
      (encodeField delta).1) ∧
    (UInt8.ofNat (16 * (encodeField delta).1 + (encodeField length).1) &&& 0b1111).toNat = (encodeField length).1 :=
  nibbles ⟨_, (encodeField_lt delta).trans (by decide)⟩ ⟨_, (encodeField_lt length).trans (by decide)⟩

/-- There is not enough for the extension bytes. -/
theorem readOption_short {delta length : Nat}
    (hfirst : udpPayload offset = UInt8.ofNat (16 * (encodeField delta).1 + (encodeField length).1))
    (hshort : udpPayloadSize < offset + (fieldBytes delta length).length) :
    (readOption udpPayload udpPayloadSize offset number).val = none := by
  obtain ⟨hd, hl⟩ := nibbles_fieldBytes delta length
  simp only [fieldBytes, List.length_cons, List.length_append] at hshort
  unfold readOption
  simp only [readByte, Traced.val_bind, Traced.val_pure, hfirst, hd, hl, numExtendedBytes_encodeField]
  rw [if_pos (by omega)]
  rfl

/-- Distance and length are read; the value has to be there, and the number
must not be too large. -/
theorem readOption_fields {delta length : Nat} (hbytes : BytesAt udpPayload offset (fieldBytes delta length))
    (hdelta : delta ≤ MAX_FIELD) (hlength : length ≤ MAX_FIELD)
    (hsize : offset + (fieldBytes delta length).length ≤ udpPayloadSize) :
    (readOption udpPayload udpPayloadSize offset number).val =
      if number + delta > 65535 then none
      else if udpPayloadSize < offset + (fieldBytes delta length).length + length then none
      else some ⟨number + delta, offset + (fieldBytes delta length).length, length⟩ := by
  obtain ⟨hd, hl⟩ := nibbles_fieldBytes delta length
  obtain ⟨hfirst, hext⟩ := bytesAt_cons.mp hbytes
  obtain ⟨hextd, hextl⟩ := bytesAt_append.mp hext
  have hreadd := readExtended_encodeField hdelta hextd
  have hreadl : (readExtended udpPayload (encodeField length).1 (offset + (encodeField delta).2.length)).val =
      (length, offset + (encodeField delta).2.length + (encodeField length).2.length) := by
    refine readExtended_encodeField hlength ?_
    rw [Nat.add_right_comm]
    exact hextl
  have hlen : (fieldBytes delta length).length =
      1 + ((encodeField delta).2.length + (encodeField length).2.length) := by
    simp only [fieldBytes, List.length_cons, List.length_append]
    omega
  rw [hlen] at hsize ⊢
  unfold readOption
  simp only [readByte, Traced.val_bind, Traced.val_pure, Traced.val_ite, hfirst, hd, hl, numExtendedBytes_encodeField,
    hreadd, hreadl]
  rw [if_neg (by omega)]
  rw [show offset + (encodeField delta).2.length + (encodeField length).2.length + 1 =
    offset + (1 + ((encodeField delta).2.length + (encodeField length).2.length)) by omega]

theorem readOption_encodeOption {delta : Nat} {value : List UInt8}
    (hbytes : BytesAt udpPayload offset (encodeOption delta value)) (hdelta : delta ≤ MAX_FIELD)
    (hvalue : value.length ≤ MAX_FIELD) (hsize : offset + (encodeOption delta value).length ≤ udpPayloadSize)
    (hnumber : number + delta ≤ 65535) :
    (readOption udpPayload udpPayloadSize offset number).val =
      some ⟨number + delta, offset + (fieldBytes delta value.length).length, value.length⟩ := by
  rw [encodeOption_eq] at hbytes hsize
  rw [List.length_append] at hsize
  rw [readOption_fields (bytesAt_append.mp hbytes).1 hdelta hvalue (by omega), if_neg (by omega), if_neg (by omega)]

/-! ### What is no option -/

/-- The bytes do not start with an option, for which the number in front is
`number`: a reserved nibble, a part of an option, a number that is too large. -/
inductive Broken (number : Nat) : List UInt8 → Prop
  | reserved (first : UInt8) (rest : List UInt8) : first ≠ 0xFF →
    first.toNat / 16 = 15 ∨ first.toNat % 16 = 15 → Broken number (first :: rest)
  | truncated (delta : Nat) (value bytes : List UInt8) : delta ≤ MAX_FIELD → value.length ≤ MAX_FIELD →
    bytes ≠ [] → bytes <+: encodeOption delta value → bytes ≠ encodeOption delta value → Broken number bytes
  | tooLarge (delta : Nat) (value rest : List UInt8) : delta ≤ MAX_FIELD → value.length ≤ MAX_FIELD →
    65535 < number + delta → Broken number (encodeOption delta value ++ rest)

theorem upper_nibble : ∀ b : Fin 256, ((UInt8.ofNat b.val &&& 0b11110000) >>> 4).toNat = b.val / 16 ∧
    (UInt8.ofNat b.val &&& 0b1111).toNat = b.val % 16 := by
  decide +kernel

theorem nibbles_toNat (x : UInt8) : ((x &&& 0b11110000) >>> 4).toNat = x.toNat / 16 ∧ (x &&& 0b1111).toNat = x.toNat % 16 := by
  have h := upper_nibble ⟨x.toNat, x.toNat_lt⟩
  rwa [UInt8.ofNat_toNat] at h

/-- The first byte of an option is not the payload marker. -/
theorem fieldBytes_ne_marker (delta length : Nat) :
    UInt8.ofNat (16 * (encodeField delta).1 + (encodeField length).1) ≠ 0xFF := by
  intro h
  have hl := (nibbles_fieldBytes delta length).2
  have hlt := encodeField_lt length
  rw [h] at hl
  exact absurd (hl.symm.trans (by decide : _ = 15)) (Nat.ne_of_lt hlt)

theorem readOption_broken {bytes : List UInt8} (hbroken : Broken number bytes)
    (hbytes : BytesAt udpPayload offset bytes) (hsize : udpPayloadSize = offset + bytes.length) :
    offset < udpPayloadSize ∧ udpPayload offset ≠ 0xFF ∧
      (readOption udpPayload udpPayloadSize offset number).val = none := by
  cases hbroken with
  | reserved first rest hne hnibble =>
    have hfirst := (bytesAt_cons.mp hbytes).1
    obtain ⟨hd, hl⟩ := nibbles_toNat first
    refine ⟨by rw [List.length_cons] at hsize; omega, hfirst ▸ hne, ?_⟩
    unfold readOption
    simp only [readByte, Traced.val_bind, Traced.val_pure, hfirst, hd, hl]
    rcases hnibble with h15 | h15
    · rw [h15]
      rfl
    · rw [h15]
      split
      · rename_i h0
        cases h0
      · rfl
  | truncated delta value bytes hdelta hvalue hne hinitial hproper =>
    have hlt : bytes.length < (encodeOption delta value).length :=
      Nat.lt_of_le_of_ne hinitial.length_le fun heq => hproper (hinitial.eq_of_length heq)
    have hpos := List.length_pos_iff.mpr hne
    rw [encodeOption_eq] at hinitial hlt
    rw [List.length_append] at hlt
    have hfirst : udpPayload offset = UInt8.ofNat (16 * (encodeField delta).1 + (encodeField value.length).1) := by
      obtain ⟨x, rest, rfl⟩ := List.exists_cons_of_ne_nil hne
      rw [(bytesAt_cons.mp hbytes).1]
      obtain ⟨rest', hrest⟩ := hinitial
      exact (List.cons.inj hrest).1
    refine ⟨by omega, hfirst ▸ fieldBytes_ne_marker delta value.length, ?_⟩
    by_cases hshort : bytes.length < (fieldBytes delta value.length).length
    · exact readOption_short hfirst (by omega)
    · have hfields : fieldBytes delta value.length <+: bytes :=
        List.prefix_of_prefix_length_le (List.prefix_append _ _) hinitial (by omega)
      rw [readOption_fields (hbytes.ofInitial hfields) hdelta hvalue (by omega)]
      split
      · rfl
      · rw [if_pos (by omega)]
  | tooLarge delta value rest hdelta hvalue hlarge =>
    rw [List.length_append, encodeOption_eq, List.length_append] at hsize
    have hoption := (bytesAt_append.mp hbytes).1
    rw [encodeOption_eq] at hoption
    have hfields := (bytesAt_append.mp hoption).1
    have hfirst := (bytesAt_cons.mp hfields).1
    have hpos : 0 < (fieldBytes delta value.length).length := Nat.succ_pos _
    refine ⟨by omega, hfirst ▸ fieldBytes_ne_marker delta value.length, ?_⟩
    rw [readOption_fields hfields hdelta hvalue (by omega), if_pos hlarge]

/-! ## The option loop -/

theorem Ordered.tail {o : RequestOption} {os : List RequestOption} (h : Ordered number (o :: os)) :
    Ordered o.number os := by
  obtain ⟨_, hpair⟩ := h
  exact List.pairwise_cons.mp hpair

theorem delta_le_field (number : Nat) (o : RequestOption) : o.number - number ≤ MAX_FIELD := by
  have := o.number_le
  unfold MAX_FIELD
  omega

theorem value_le_field (o : RequestOption) : o.value.length ≤ MAX_FIELD := by
  have := o.value_le
  unfold MAX_FIELD
  omega

theorem encodeOption_length_pos (delta : Nat) (value : List UInt8) : 0 < (encodeOption delta value).length :=
  Nat.succ_pos _

/-- Where the server finds the option. -/
def locate (number offset : Nat) (o : RequestOption) : CoAPOption :=
  ⟨o.number, offset + (fieldBytes (o.number - number) o.value.length).length, o.value.length⟩

variable {links : List PathIndex} {rounds : Nat} {s : PathState}

/-- One round of the loop. -/
theorem optionLoop_encodeOption {o : RequestOption} (hle : number ≤ o.number)
    (hbytes : BytesAt udpPayload offset (encodeOption (o.number - number) o.value))
    (hsize : offset + (encodeOption (o.number - number) o.value).length ≤ udpPayloadSize) :
    (optionLoop links udpPayload udpPayloadSize (rounds + 1) offset number s).val =
      match (applyOption links udpPayload (locate number offset o) s).val with
      | none => .dropped s
      | some s => (optionLoop links udpPayload udpPayloadSize rounds
          (offset + (encodeOption (o.number - number) o.value).length) o.number s).val := by
  have hsum : number + (o.number - number) = o.number := by omega
  have hread : (readOption udpPayload udpPayloadSize offset number).val = some (locate number offset o) := by
    have hnumber := o.number_le
    rw [readOption_encodeOption hbytes (delta_le_field number o) (value_le_field o) hsize (by omega), hsum]
    rfl
  have hpos := encodeOption_length_pos (o.number - number) o.value
  have hmarker : udpPayload offset ≠ 0xFF := by
    rw [encodeOption_eq] at hbytes
    rw [(bytesAt_cons.mp (bytesAt_append.mp hbytes).1).1]
    exact fieldBytes_ne_marker _ _
  have hend : (locate number offset o).value + (locate number offset o).length =
      offset + (encodeOption (o.number - number) o.value).length := by
    rw [encodeOption_eq, List.length_append]
    exact Nat.add_assoc _ _ _
  rw [optionLoop, if_pos (by omega)]
  simp only [Traced.val_bind, Traced.val_ite]
  rw [if_neg (show (readByte udpPayload offset).val ≠ 0xFF from hmarker), hread]
  dsimp only
  rw [Traced.val_bind]
  cases (applyOption links udpPayload (locate number offset o) s).val with
  | none => rfl
  | some t =>
    dsimp only
    rw [hend]
    rfl

variable (links) in
/-- Options that are broken somewhere are dropped, whatever is in front. -/
theorem optionLoop_broken {os : List RequestOption} {rest : List UInt8} (hordered : Ordered number os)
    (hbroken : Broken (lastNumber number os) rest)
    (hbytes : BytesAt udpPayload offset (encodeOptions number os ++ rest))
    (hsize : udpPayloadSize = offset + (encodeOptions number os ++ rest).length) (hrounds : udpPayloadSize < offset + rounds) :
    ∃ t, (optionLoop links udpPayload udpPayloadSize rounds offset number s).val = .dropped t := by
  induction os generalizing number offset rounds s with
  | nil =>
    obtain ⟨hlt, hmarker, hread⟩ := readOption_broken (show Broken number rest from hbroken) hbytes hsize
    cases rounds with
    | zero => omega
    | succ rounds =>
      refine ⟨s, ?_⟩
      rw [optionLoop, if_pos hlt]
      simp only [Traced.val_bind, Traced.val_ite]
      rw [if_neg (show (readByte udpPayload offset).val ≠ 0xFF from hmarker), hread]
      rfl
  | cons o os ih =>
    rw [encodeOptions, List.append_assoc] at hbytes hsize
    rw [List.length_append] at hsize
    obtain ⟨hoption, hrest⟩ := bytesAt_append.mp hbytes
    have hpos := encodeOption_length_pos (o.number - number) o.value
    cases rounds with
    | zero => omega
    | succ rounds =>
      rw [optionLoop_encodeOption (hordered.1 o (by simp)) hoption (by omega)]
      cases (applyOption links udpPayload (locate number offset o) s).val with
      | none => exact ⟨s, rfl⟩
      | some t => exact ih hordered.tail hbroken hrest (by omega) (by omega)

end

/-! ## What the options say -/

/-- The Uri-Path values, each behind a '/'. -/
def uriPath (os : List RequestOption) : List UInt8 :=
  (os.filter fun o => o.number = 11).flatMap fun o => slash :: o.value

/-- '/' and the Uri-Path values joined by '/'. -/
def requestPath (os : List RequestOption) : List UInt8 :=
  slash :: [slash].intercalate ((os.filter fun o => o.number = 11).map (·.value))

def formatOfValue : List UInt8 → Option ContentFormat
  | [] => some .textPlainCharsetUTF8
  | [b] => ContentFormat.ofIdentifier b
  | _ => none

/-- The last Content-Format value. -/
def contentFormatOf (os : List RequestOption) : ContentFormat :=
  ((os.filter fun o => o.number = 12).getLast?.bind fun o => formatOfValue o.value).getD .textPlainCharsetUTF8

/-- A Content-Format option is empty or one byte that the server knows. -/
def RequestOption.Known (o : RequestOption) : Prop := o.number = 12 → (formatOfValue o.value).isSome

theorem uriPath_snoc (os : List RequestOption) (o : RequestOption) :
    uriPath (os ++ [o]) = uriPath os ++ if o.number = 11 then slash :: o.value else [] := by
  by_cases h : o.number = 11 <;> simp [uriPath, List.filter_append, h]

theorem contentFormatOf_snoc (os : List RequestOption) (o : RequestOption) :
    contentFormatOf (os ++ [o]) =
      if o.number = 12 then (formatOfValue o.value).getD .textPlainCharsetUTF8 else contentFormatOf os := by
  by_cases h : o.number = 12 <;> simp [contentFormatOf, List.filter_append, h]

theorem cons_intercalate (v : List UInt8) (vs : List (List UInt8)) :
    slash :: [slash].intercalate (v :: vs) = (v :: vs).flatMap (slash :: ·) := by
  induction vs generalizing v with
  | nil => simp [List.intercalate]
  | cons w vs ih =>
    have hsplit : [slash].intercalate (v :: w :: vs) = v ++ slash :: [slash].intercalate (w :: vs) := by
      simp [List.intercalate, List.intersperse]
    rw [hsplit, ih w]
    rfl

theorem requestPath_eq (os : List RequestOption) :
    requestPath os = if uriPath os = [] then [slash] else uriPath os := by
  unfold requestPath uriPath
  cases (os.filter fun o => o.number = 11) with
  | nil => rfl
  | cons o os =>
    rw [List.map_cons, cons_intercalate, if_neg (by simp), ← List.map_cons (f := RequestOption.value), List.flatMap_map]

/-! ## Following the options -/

/-- The candidates after some characters of the path. -/
def feed : List UInt8 → Bool → List PathIndex × (PathIndex → CoAPPath) → List PathIndex × (PathIndex → CoAPPath)
  | [], _, candidates => candidates
  | c :: cs, isFirstCharacter, candidates =>
    feed cs false (trimListBasedOnNewCharacter c isFirstCharacter candidates.1 candidates.2)

theorem feed_append (cs ds : List UInt8) (isFirstCharacter : Bool) (candidates : List PathIndex × (PathIndex → CoAPPath)) :
    feed (cs ++ ds) isFirstCharacter candidates =
      feed ds (isFirstCharacter && cs.isEmpty) (feed cs isFirstCharacter candidates) := by
  induction cs generalizing isFirstCharacter candidates with
  | nil => simp [feed]
  | cons c cs ih => simp [feed, ih]

theorem feed_nil (cs : List UInt8) (isFirstCharacter : Bool) (elements : PathIndex → CoAPPath) :
    feed cs isFirstCharacter ([], elements) = ([], elements) := by
  induction cs generalizing isFirstCharacter with
  | nil => rfl
  | cons c cs ih => exact ih false

/-- The variables of the option loop after the options `os`. -/
structure Follows (server : CoAPServer) (s : PathState) (os : List RequestOption) : Prop where
  candidates : (s.possibleValidPaths, s.elements) = feed (uriPath os) true (server.used, server.pathListElements)
  contentFormat : s.contentFormat = contentFormatOf os
  path : s.possibleValidPaths ≠ [] → s.pathSizeSoFar = (uriPath os).length ∧
    ∀ k < (uriPath os).length, s.path k = (uriPath os).getD k 0

section
variable {udpPayload : Nat → UInt8} {udpPayloadSize offset : Nat} {links : List PathIndex}

theorem appendLoop_follows (value : List UInt8) (i : Nat) (s : PathState) (hbytes : BytesAt udpPayload offset value) :
    let r := (appendLoop udpPayload value.length i offset s).val
    (r.possibleValidPaths, r.elements) = feed value false (s.possibleValidPaths, s.elements) ∧
      r.contentFormat = s.contentFormat ∧ r.pathSizeSoFar = s.pathSizeSoFar ∧
      (r.possibleValidPaths ≠ [] →
        ∀ k, r.path k = if i ≤ k ∧ k < i + value.length then value.getD (k - i) 0 else s.path k) := by
  induction value generalizing i offset s with
  | nil =>
    refine ⟨rfl, rfl, rfl, fun _ k => ?_⟩
    rw [if_neg (by rw [List.length_nil]; omega)]
    rfl
  | cons c value ih =>
    obtain ⟨hc, hrest⟩ := bytesAt_cons.mp hbytes
    rw [List.length_cons, appendLoop, Traced.val_ite]
    by_cases hnone : s.possibleValidPaths = []
    · rw [if_pos hnone]
      refine ⟨?_, rfl, rfl, fun hne => absurd hnone hne⟩
      rw [hnone, feed_nil]
      simp [hnone]
    · rw [if_neg hnone]
      simp only [Traced.val_bind, readByte, Traced.val_pure, hc]
      obtain ⟨hcand, hformat, hsize, hpath⟩ := ih (i + 1) ((writePath s i c).val.trim c false) hrest
      refine ⟨hcand, hformat, hsize, fun hne k => ?_⟩
      rw [hpath hne k]
      show (if _ then _ else Function.update s.path i c k) = _
      by_cases hk : k = i
      · subst hk
        rw [if_neg (by omega), if_pos (by omega), Function.update_self, Nat.sub_self]
        rfl
      · rw [Function.update_of_ne hk]
        by_cases hin : i + 1 ≤ k ∧ k < i + 1 + value.length
        · rw [if_pos hin, if_pos (by omega), show k - i = (k - (i + 1)) + 1 by omega]
          rfl
        · rw [if_neg hin, if_neg (by omega)]

variable {server : CoAPServer} {s : PathState} {os : List RequestOption} {o : RequestOption} {number rounds : Nat}

theorem Follows.size_eq (h : Follows server s os) (hne : s.possibleValidPaths ≠ []) :
    (s.pathSizeSoFar == 0) = (uriPath os).isEmpty := by
  rw [(h.path hne).1]
  cases uriPath os <;> rfl

variable (links) in
/-- The path goes on with a Uri-Path option. -/
theorem follows_appendPath (h : Follows server s os) (hne : s.possibleValidPaths ≠ []) (h11 : o.number = 11)
    (hfit : (uriPath (os ++ [o])).length ≤ MAX_COAP_PATH_SIZE)
    (hbytes : BytesAt udpPayload (locate number offset o).value o.value) :
    Follows server (appendPath links udpPayload (locate number offset o) s).val (os ++ [o]) := by
  obtain ⟨hsize, hpath⟩ := h.path hne
  have hsnoc : uriPath (os ++ [o]) = uriPath os ++ slash :: o.value := by rw [uriPath_snoc, if_pos h11]
  rw [hsnoc, List.length_append, List.length_cons] at hfit
  have hshort : ¬ s.TooLong (locate number offset o) := by
    show ¬ s.pathSizeSoFar + (1 + o.value.length) > MAX_COAP_PATH_SIZE
    omega
  obtain ⟨hcand, hformat, hsize', hpath'⟩ := appendLoop_follows o.value (s.pathSizeSoFar + 1)
    ((writePath s s.pathSizeSoFar slash).val.trim slash (s.pathSizeSoFar == 0)) hbytes
  have hval : (appendPath links udpPayload (locate number offset o) s).val =
      let r := (appendLoop udpPayload o.value.length (s.pathSizeSoFar + 1) (locate number offset o).value
        ((writePath s s.pathSizeSoFar slash).val.trim slash (s.pathSizeSoFar == 0))).val
      { r with pathSizeSoFar := r.pathSizeSoFar + (1 + o.value.length) } := by
    simp only [appendPath, startSegment, if_neg hshort, Traced.val_bind, Traced.val_pure]
    rfl
  rw [hval]
  constructor
  · rw [hsnoc, feed_append, ← h.candidates]
    show (_, _) = feed o.value false (trimListBasedOnNewCharacter slash (true && (uriPath os).isEmpty) _ _)
    rw [Bool.true_and, ← h.size_eq hne]
    exact hcand
  · rw [contentFormatOf_snoc, if_neg (by omega), ← h.contentFormat]
    exact hformat
  · intro hne'
    constructor
    · show _ + (1 + o.value.length) = _
      rw [hsize', hsnoc, List.length_append, List.length_cons, ← hsize]
      show s.pathSizeSoFar + _ = _
      omega
    · intro k hk
      rw [hsnoc, List.length_append, List.length_cons] at hk
      show (appendLoop _ _ _ _ _).val.path k = _
      have hfresh : ((writePath s s.pathSizeSoFar slash).val.trim slash (s.pathSizeSoFar == 0)).path k =
        Function.update s.path s.pathSizeSoFar slash k := rfl
      rw [hpath' hne' k, hfresh, hsnoc, hsize]
      by_cases hlt : k < (uriPath os).length
      · rw [if_neg (by omega), Function.update_of_ne (by omega), hpath k hlt, List.getD_append _ _ _ _ hlt]
      · rw [List.getD_append_right _ _ _ _ (by omega)]
        by_cases heq : k = (uriPath os).length
        · rw [if_neg (by omega), heq, Function.update_self, Nat.sub_self]
          rfl
        · rw [if_pos (by omega), show k - (uriPath os).length = k - ((uriPath os).length + 1) + 1 by omega]
          rfl

theorem applyOption_of_other {c : CoAPOption} (h11 : ¬ (c.number = 11 ∧ s.possibleValidPaths ≠ [])) (h12 : c.number ≠ 12) :
    (applyOption links udpPayload c s).val = some s := by
  rw [applyOption, if_neg h11, if_neg h12]
  rfl

variable (links) in
theorem follows_applyOption (h : Follows server s os) (hknown : o.Known)
    (hfit : (uriPath (os ++ [o])).length ≤ MAX_COAP_PATH_SIZE)
    (hbytes : BytesAt udpPayload (locate number offset o).value o.value) :
    ∃ t, (applyOption links udpPayload (locate number offset o) s).val = some t ∧ Follows server t (os ++ [o]) := by
  by_cases h11 : o.number = 11
  · by_cases hne : s.possibleValidPaths = []
    · refine ⟨s, applyOption_of_other (fun hc => hc.2 hne) (by show o.number ≠ 12; omega), ?_, ?_, fun hne' => absurd hne hne'⟩
      · rw [uriPath_snoc, feed_append, ← h.candidates, hne, feed_nil]
      · rw [contentFormatOf_snoc, if_neg (by omega)]
        exact h.contentFormat
    · refine ⟨_, ?_, follows_appendPath links h hne h11 hfit hbytes⟩
      rw [applyOption, if_pos ⟨h11, hne⟩]
      rfl
  · have hsame : uriPath (os ++ [o]) = uriPath os := by rw [uriPath_snoc, if_neg h11, List.append_nil]
    by_cases h12 : o.number = 12
    · have happly : (applyOption links udpPayload (locate number offset o) s).val =
          some { s with contentFormat := (formatOfValue o.value).getD .textPlainCharsetUTF8 } := by
        have hsome := hknown h12
        rw [applyOption, if_neg (fun hc => h11 hc.1), if_pos (show (locate number offset o).number = 12 from h12)]
        cases hvalue : o.value with
        | nil =>
          rw [if_pos (by simp [locate, hvalue])]
          rfl
        | cons b rest =>
          rw [hvalue] at hsome hbytes
          cases rest with
          | nil =>
            obtain ⟨format, hformat⟩ := Option.isSome_iff_exists.mp hsome
            have hb : udpPayload (locate number offset o).value = b := (bytesAt_cons.mp hbytes).1
            have hformat' : ContentFormat.ofIdentifier b = some format := hformat
            rw [if_neg (by simp [locate, hvalue]), if_pos (by simp [locate, hvalue])]
            simp [readByte, hb, formatOfValue, hformat']
          | cons c rest => cases hsome
      refine ⟨_, happly, ?_, ?_, fun hne => ?_⟩
      · rw [hsame]
        exact h.candidates
      · rw [contentFormatOf_snoc, if_pos h12]
      · rw [hsame]
        exact h.path hne
    · refine ⟨s, applyOption_of_other (fun hc => h11 hc.1) h12, ?_, ?_, fun hne => ?_⟩
      · rw [hsame]
        exact h.candidates
      · rw [contentFormatOf_snoc, if_neg h12]
        exact h.contentFormat
      · rw [hsame]
        exact h.path hne

theorem uriPath_append (os os' : List RequestOption) : uriPath (os ++ os') = uriPath os ++ uriPath os' := by
  simp [uriPath, List.filter_append]

variable (links) in
/-- All options are read, up to the end or the payload marker. -/
theorem optionLoop_follows {os' : List RequestOption} (h : Follows server s os) (hordered : Ordered number os')
    (hknown : ∀ o ∈ os', o.Known) (hfit : (uriPath (os ++ os')).length ≤ MAX_COAP_PATH_SIZE)
    (hbytes : BytesAt udpPayload offset (encodeOptions number os'))
    (hsize : offset + (encodeOptions number os').length ≤ udpPayloadSize)
    (hstop : offset + (encodeOptions number os').length = udpPayloadSize ∨
      udpPayload (offset + (encodeOptions number os').length) = 0xFF) (hrounds : udpPayloadSize < offset + rounds) :
    ∃ t, (optionLoop links udpPayload udpPayloadSize rounds offset number s).val =
      .done (offset + (encodeOptions number os').length) t ∧ Follows server t (os ++ os') := by
  induction os' generalizing number offset rounds s os with
  | nil =>
    rw [List.append_nil]
    refine ⟨s, ?_, h⟩
    cases rounds with
    | zero => omega
    | succ rounds =>
      rw [optionLoop, Traced.val_ite]
      split
      · rename_i hlt
        have hmarker : (readByte udpPayload offset).val = 0xFF := by
          rcases hstop with hend | hmarker
          · rw [encodeOptions, List.length_nil] at hend
            omega
          · exact hmarker
        simp only [Traced.val_bind, Traced.val_ite]
        rw [if_pos hmarker]
        rfl
      · rfl
  | cons o os' ih =>
    rw [encodeOptions] at hbytes hsize hstop ⊢
    rw [List.length_append, ← Nat.add_assoc] at hsize hstop ⊢
    obtain ⟨hoption, hrest⟩ := bytesAt_append.mp hbytes
    have hvalue : BytesAt udpPayload (locate number offset o).value o.value := by
      rw [encodeOption_eq] at hoption
      exact (bytesAt_append.mp hoption).2
    have hpos := encodeOption_length_pos (o.number - number) o.value
    rw [List.append_cons] at hfit ⊢
    have hfit' : (uriPath (os ++ [o])).length ≤ MAX_COAP_PATH_SIZE := by
      rw [uriPath_append, List.length_append] at hfit
      omega
    cases rounds with
    | zero => omega
    | succ rounds =>
      obtain ⟨t, ht, hfollows⟩ := follows_applyOption links h (hknown o (by simp)) hfit' hvalue
      rw [optionLoop_encodeOption (hordered.1 o (by simp)) hoption (by omega), ht]
      exact ih hfollows hordered.tail (fun o' ho' => hknown o' (List.mem_cons_of_mem _ ho')) hfit hrest hsize hstop
        (by omega)

/-- The path and the candidates at the end of the options. -/
theorem finishPath_follows (h : Follows server s os) :
    ((finishPath s).val.possibleValidPaths, (finishPath s).val.elements) =
        feed [0] false (feed (requestPath os) true (server.used, server.pathListElements)) ∧
      (finishPath s).val.contentFormat = contentFormatOf os ∧
      ((finishPath s).val.possibleValidPaths ≠ [] → BytesAt (finishPath s).val.path 0 (requestPath os ++ [0])) := by
  have hroot : ((rootPath s).val.possibleValidPaths, (rootPath s).val.elements) =
        feed (requestPath os) true (server.used, server.pathListElements) ∧
      (rootPath s).val.contentFormat = s.contentFormat ∧
      ((rootPath s).val.possibleValidPaths ≠ [] → (rootPath s).val.pathSizeSoFar = (requestPath os).length ∧
        BytesAt (rootPath s).val.path 0 (requestPath os)) := by
    rw [requestPath_eq, rootPath, Traced.val_ite]
    by_cases hne : s.possibleValidPaths = []
    · -- nothing is left, whatever comes
      have hempty : feed (if uriPath os = [] then [slash] else uriPath os) true (server.used, server.pathListElements) =
          ([], s.elements) := by
        have hcand := h.candidates
        rw [hne] at hcand
        split
        · rename_i hnil
          rw [hnil] at hcand
          show feed [slash] true (feed [] true (server.used, server.pathListElements)) = _
          rw [← hcand, feed_nil]
        · exact hcand.symm
      rw [hempty]
      have htrim : ∀ t : PathState, t.possibleValidPaths = [] → t.elements = s.elements →
          ((t.trim slash true).possibleValidPaths, (t.trim slash true).elements) = ([], s.elements) := by
        intro t ht hte
        simp [PathState.trim, ht, hte, trimListBasedOnNewCharacter]
      split
      · refine ⟨htrim _ hne rfl, rfl, fun hne' => absurd ?_ hne'⟩
        exact congrArg Prod.fst (htrim (writePath s 0 slash).val hne rfl)
      · exact ⟨by rw [Traced.val_pure, hne], rfl, fun hne' => absurd hne hne'⟩
    · obtain ⟨hsize, hpath⟩ := h.path hne
      by_cases hnil : uriPath os = []
      · rw [if_pos (by rw [hsize, hnil]; rfl), if_pos hnil]
        refine ⟨?_, rfl, fun _ => ⟨rfl, fun k hk => ?_⟩⟩
        · have hcand := h.candidates
          rw [hnil] at hcand
          rw [show feed [slash] true (server.used, server.pathListElements) =
            feed [slash] true (feed [] true (server.used, server.pathListElements)) from rfl, ← hcand]
          rfl
        · have hk0 : k = 0 := by simpa using hk
          subst hk0
          exact Function.update_self 0 slash s.path
      · rw [if_neg (by rw [hsize]; simpa using hnil), if_neg hnil]
        refine ⟨h.candidates, rfl, fun _ => ⟨hsize, fun k hk => ?_⟩⟩
        rw [Nat.zero_add]
        exact hpath k hk
  obtain ⟨hcand, hformat, hpath⟩ := hroot
  have hval : (finishPath s).val =
      ((writePath (rootPath s).val (rootPath s).val.pathSizeSoFar 0).val.trim 0 false) := rfl
  rw [hval]
  refine ⟨?_, hformat.trans h.contentFormat, fun hne => ?_⟩
  · rw [← hcand]
    rfl
  · have hne' : (rootPath s).val.possibleValidPaths ≠ [] := by
      intro hnil
      apply hne
      simp [PathState.trim, writePath, hnil, trimListBasedOnNewCharacter]
    obtain ⟨hsize, hbytes⟩ := hpath hne'
    have hupdate : ((writePath (rootPath s).val (rootPath s).val.pathSizeSoFar 0).val.trim 0 false).path =
        Function.update (rootPath s).val.path (requestPath os).length 0 := by
      rw [← hsize]
      rfl
    rw [hupdate]
    refine bytesAt_append.mpr ⟨fun k hk => ?_, bytesAt_cons.mpr ⟨?_, by simp [BytesAt]⟩⟩
    · rw [Function.update_of_ne (by omega)]
      exact hbytes k hk
    · rw [Nat.zero_add, Function.update_self]

end

/-! ## A whole request -/

structure Request where
  confirmable : Bool
  method : Method
  messageIDLower : UInt8
  messageIDUpper : UInt8
  token : List UInt8
  options : List RequestOption
  payload : List UInt8
  token_le : token.length ≤ 8
  ordered : Ordered 0 options
  known : ∀ o ∈ options, o.Known

/-- The method codes 0.01 to 0.04. -/
def methodCode : Method → UInt8
  | .get => 1
  | .post => 2
  | .put => 3
  | .delete => 4

def Request.encodeHeader (r : Request) : List UInt8 :=
  [UInt8.ofNat (64 + (if r.confirmable then 0 else 16) + r.token.length), methodCode r.method, r.messageIDLower,
    r.messageIDUpper]

/-- A payload has a marker in front. -/
def encodePayload (payload : List UInt8) : List UInt8 := if payload = [] then [] else 0xFF :: payload

def Request.encode (r : Request) : List UInt8 :=
  r.encodeHeader ++ (r.token ++ (encodeOptions 0 r.options ++ encodePayload r.payload))

theorem header_fields : ∀ (c : Bool) (n : Fin 9),
    (UInt8.ofNat (64 + (if c then 0 else 16) + n.val) &&& 0b11000000) >>> 6 = 1 ∧
    ((UInt8.ofNat (64 + (if c then 0 else 16) + n.val) &&& 0b110000) >>> 4) = (if c then 0 else 1) ∧
    (UInt8.ofNat (64 + (if c then 0 else 16) + n.val) &&& 0b1111).toNat = n.val := by
  decide +kernel

theorem methodCode_fields (m : Method) : (methodCode m &&& 0b11100000) >>> 5 = 0 ∧
    methodOf (methodCode m &&& 0b11111).toNat = some m := by
  cases m <;> exact ⟨by decide, by decide⟩

section
variable {udpPayload : Nat → UInt8} {udpPayloadSize : Nat} {links : List PathIndex} {server : CoAPServer}

theorem readHeader_encode (r : Request) (hheader : BytesAt udpPayload 0 r.encodeHeader)
    (hsize : 4 + r.token.length ≤ udpPayloadSize) : ∃ h, (readHeader udpPayload udpPayloadSize).val = some h ∧
      h.tokenLength = r.token.length ∧ methodOf h.codeDetail = some r.method := by
  obtain ⟨h0, h1, _⟩ := bytesAt_cons.mp hheader |>.imp id bytesAt_cons.mp
  obtain ⟨hversion, htype, htoken⟩ := header_fields r.confirmable ⟨r.token.length, Nat.lt_succ_of_le r.token_le⟩
  obtain ⟨hclass, hmethod⟩ := methodCode_fields r.method
  have hle := r.token_le
  dsimp only at hversion htype htoken
  unfold readHeader
  simp only [Traced.val_ite, Traced.val_bind, Traced.val_pure, readByte, h0, h1, hversion, htype, htoken, hclass]
  rw [if_neg (by omega), if_neg (by simp), if_neg (by cases r.confirmable <;> simp), if_neg (by omega),
    if_neg (by simp), if_neg (by omega)]
  exact ⟨_, rfl, rfl, hmethod⟩

theorem payload_encode {payload : List UInt8} {offset : Nat}
    (hbytes : BytesAt udpPayload offset (encodePayload payload))
    (hsize : udpPayloadSize = offset + (encodePayload payload).length) :
    payloadBytes udpPayload udpPayloadSize offset = payload := by
  unfold payloadBytes payloadSize PAYLOAD_MARKER_SIZE
  unfold encodePayload at hbytes hsize
  by_cases hnil : payload = []
  · rw [if_pos hnil, List.length_nil] at hsize
    rw [if_pos (by omega), hnil]
    rfl
  · rw [if_neg hnil] at hbytes hsize
    rw [List.length_cons] at hsize
    have hpayload := (bytesAt_cons.mp hbytes).2
    rw [if_neg (by omega), show udpPayloadSize - (offset + 1) = payload.length by omega]
    refine List.ext_getElem (by simp) fun k hk hk' => ?_
    rw [List.getElem_map, List.getElem_range, hpayload k hk', List.getD_eq_getElem _ _ hk']

/-- The bytes of a datagram whose options are broken somewhere. -/
def Malformed (bytes : List UInt8) : Prop :=
  ∃ header token os rest, bytes = header ++ (token ++ (encodeOptions 0 os ++ rest)) ∧ header.length = 4 ∧
    token.length = (header.getD 0 0 &&& 0b1111).toNat ∧ Ordered 0 os ∧ Broken (lastNumber 0 os) rest

theorem invocations_malformed {bytes : List UInt8} (hm : Malformed bytes) (hbytes : BytesAt udpPayload 0 bytes)
    (path : Bytes) : server.invocations links bytes.length udpPayload path = [] := by
  obtain ⟨header, token, os, rest, hsplit, hheader, htoken, hordered, hbroken⟩ := hm
  unfold CoAPServer.invocations
  cases hread : (readHeader udpPayload bytes.length).val with
  | none => rfl
  | some h =>
    have hfirst : udpPayload 0 = header.getD 0 0 := by
      have h0 := hbytes 0 (by rw [hsplit, List.length_append]; omega)
      rwa [hsplit, List.getD_append _ _ _ _ (by omega)] at h0
    have hlen : 4 + h.tokenLength = header.length + token.length := by
      rw [(readHeader_tokenLength hread).1, hfirst, hheader, htoken]
    have hoptions : BytesAt udpPayload (4 + h.tokenLength) (encodeOptions 0 os ++ rest) := by
      rw [hsplit] at hbytes
      have hrest := (bytesAt_append.mp (bytesAt_append.mp hbytes).2).2
      rwa [Nat.zero_add, ← hlen] at hrest
    have hsize : bytes.length = 4 + h.tokenLength + (encodeOptions 0 os ++ rest).length := by
      rw [hsplit, List.length_append, List.length_append, hlen]
      omega
    obtain ⟨t, ht⟩ := optionLoop_broken links (s := server.pathState path) hordered hbroken hoptions hsize
      (show bytes.length < 4 + h.tokenLength + (bytes.length + 1) by omega)
    dsimp only
    rw [ht]

variable (links server) in
/-- What the server makes of a request in the format. -/
theorem request_follows (r : Request) (hfit : (uriPath r.options).length ≤ MAX_COAP_PATH_SIZE)
    (hbytes : BytesAt udpPayload 0 r.encode) (path : Bytes) : ∃ h offset s,
      (readHeader udpPayload r.encode.length).val = some h ∧ methodOf h.codeDetail = some r.method ∧
      (optionLoop links udpPayload r.encode.length (r.encode.length + 1) (4 + h.tokenLength) 0
        (server.pathState path)).val = .done offset s ∧ Follows server s r.options ∧
      payloadBytes udpPayload r.encode.length offset = r.payload ∧
      (checkPayloadMarker udpPayload r.encode.length offset).val = true := by
  have hlen : r.encode.length = 4 + (r.token.length + ((encodeOptions 0 r.options).length +
      (encodePayload r.payload).length)) := by
    simp only [Request.encode, List.length_append]
    rfl
  obtain ⟨hheader, hrest⟩ := bytesAt_append.mp hbytes
  obtain ⟨_, hrest⟩ := bytesAt_append.mp hrest
  obtain ⟨hoptions, hpayload⟩ := bytesAt_append.mp hrest
  rw [show 0 + r.encodeHeader.length = 4 from rfl] at hoptions hpayload
  have hheaderSize : 4 + r.token.length ≤ r.encode.length := by omega
  obtain ⟨h, hread, htoken, hmethod⟩ := readHeader_encode r hheader hheaderSize
  have hstart : Follows server (server.pathState path) [] := ⟨rfl, rfl, fun _ => ⟨rfl, by simp [uriPath]⟩⟩
  have hstop : 4 + r.token.length + (encodeOptions 0 r.options).length = r.encode.length ∨
      udpPayload (4 + r.token.length + (encodeOptions 0 r.options).length) = 0xFF := by
    unfold encodePayload at hlen hpayload
    by_cases hnil : r.payload = []
    · rw [if_pos hnil, List.length_nil] at hlen
      left
      omega
    · rw [if_neg hnil] at hpayload
      exact .inr (bytesAt_cons.mp hpayload).1
  obtain ⟨s, hs, hfollows⟩ := optionLoop_follows links hstart r.ordered r.known hfit hoptions (by omega) hstop
    (show r.encode.length < 4 + r.token.length + (r.encode.length + 1) by omega)
  have hmarker : (checkPayloadMarker udpPayload r.encode.length
      (4 + r.token.length + (encodeOptions 0 r.options).length)).val = true := by
    rcases hstop with hend | hff
    · have hzero : payloadSize r.encode.length (4 + r.token.length + (encodeOptions 0 r.options).length) = 0 := by
        unfold payloadSize PAYLOAD_MARKER_SIZE
        rw [if_pos (by omega)]
      rw [checkPayloadMarker, hzero]
      rfl
    · rw [checkPayloadMarker, Traced.val_ite]
      split <;> simp [readByte, hff]
  refine ⟨h, _, s, hread, hmethod, ?_, hfollows, payload_encode hpayload (by omega), hmarker⟩
  rw [htoken]
  exact hs

/-- A request in the format is decoded to what was encoded. For any datagram
at most one handler method is called, and none if its options are broken. -/
theorem request_decoded (server : CoAPServer) (links : List PathIndex) (udpPayload : Nat → UInt8) (path : Bytes) :
    (∀ r : Request, (requestPath r.options).length ≤ MAX_COAP_PATH_SIZE → BytesAt udpPayload 0 r.encode →
      ∀ inv ∈ server.invocations links r.encode.length udpPayload path,
        inv.method = r.method ∧ BytesAt inv.path 0 (requestPath r.options ++ [0]) ∧
        inv.contentFormat = contentFormatOf r.options ∧ inv.payload = r.payload) ∧
    (∀ (udpPayloadSize : Nat) (sourceIP : UInt32) (sourcePort : UInt16),
      handlerCalls (server.handlePacketFromReceiveBuffer links sourceIP sourcePort udpPayloadSize udpPayload path) =
        (server.invocations links udpPayloadSize udpPayload path).length ∧
      (server.invocations links udpPayloadSize udpPayload path).length ≤ 1) ∧
    ∀ bytes, Malformed bytes → BytesAt udpPayload 0 bytes →
      server.invocations links bytes.length udpPayload path = [] := by
  refine ⟨fun r hfit hbytes inv hinv => ?_, fun udpPayloadSize sourceIP sourcePort => ?_, fun bytes hm hbytes => ?_⟩
  · have hfit' : (uriPath r.options).length ≤ MAX_COAP_PATH_SIZE := by
      rw [requestPath_eq] at hfit
      split at hfit
      · rename_i hnil
        rw [hnil]
        exact Nat.zero_le _
      · exact hfit
    obtain ⟨h, offset, s, hread, hmethod, hloop, hfollows, hpayload, hmarker⟩ :=
      request_follows links server r hfit' hbytes path
    obtain ⟨_, hformat, hpath⟩ := finishPath_follows hfollows
    unfold CoAPServer.invocations at hinv
    rw [hread] at hinv
    dsimp only at hinv
    rw [hloop] at hinv
    dsimp only at hinv
    split at hinv
    · unfold dispatch at hinv
      cases hpaths : (finishPath s).val.possibleValidPaths with
      | nil =>
        rw [hpaths] at hinv
        cases hinv
      | cons i is =>
        rw [hpaths] at hinv
        dsimp only at hinv
        rw [hmarker, if_pos rfl, hmethod, hpayload] at hinv
        have heq := List.mem_singleton.mp hinv
        subst heq
        exact ⟨rfl, hpath (by rw [hpaths]; exact List.cons_ne_nil i is), hformat, rfl⟩
    · cases hinv
  · exact ⟨handlerCalls_handlePacket .., length_invocations_le ..⟩
  · exact invocations_malformed hm hbytes path

end

/-! ## PUT /a -/

theorem pathOption_number : 11 ≤ 65535 := by decide
theorem formatOption_number : 12 ≤ 65535 := by decide
theorem one_le_value : 1 ≤ 65535 := by decide

/-- A Uri-Path option "a" and a Content-Format option. -/
def putOptions : List RequestOption :=
  [⟨11, [0x61], pathOption_number, one_le_value⟩, ⟨12, [42], formatOption_number, one_le_value⟩]

theorem putOptions_ordered : Ordered 0 putOptions := by
  refine ⟨fun o _ => Nat.zero_le _, ?_⟩
  simp [putOptions]

theorem putOptions_known : ∀ o ∈ putOptions, o.Known := by
  intro o ho hnumber
  simp only [putOptions, List.mem_cons, List.not_mem_nil, or_false] at ho
  rcases ho with rfl | rfl
  · cases hnumber
  · rfl

def putRequest : Request :=
  ⟨true, .put, 0x34, 0x12, [7, 8], putOptions, [1, 2, 3], Nat.le_of_ble_eq_true rfl, putOptions_ordered, putOptions_known⟩

theorem request_decoded_put : ∃ inv,
    oneHandlerServer.invocations [] putRequest.encode.length (fun k => putRequest.encode.getD k 0) (fun _ => 0) = [inv] ∧
      inv.method = .put ∧ BytesAt inv.path 0 [slash, 0x61, 0] ∧ inv.contentFormat = .applicationOctetStream ∧
      inv.payload = [1, 2, 3] := by
  have hone : (oneHandlerServer.invocations [] putRequest.encode.length (fun k => putRequest.encode.getD k 0)
      fun _ => 0).length = 1 := by
    decide +kernel
  obtain ⟨inv, hinv⟩ := List.length_eq_one_iff.mp hone
  have hbytes : BytesAt (fun k => putRequest.encode.getD k 0) 0 putRequest.encode := fun k _ => by rw [Nat.zero_add]
  obtain ⟨hmethod, hpath, hformat, hpayload⟩ := (request_decoded oneHandlerServer [] _ fun _ => 0).1 putRequest (by decide)
    hbytes inv (by rw [hinv]; exact List.mem_singleton_self inv)
  exact ⟨inv, hinv, hmethod, hpath, hformat, hpayload⟩

end CpuScheduler.L6
