import Mathlib.Data.List.TakeWhile
import Mathlib.Data.UInt
import Mathlib.Tactic

/-!
# Length-prefixed byte strings

A message travels as its length, in `w` big-endian bytes, followed by its bytes.  This file
has the prefix code itself and the one-shot decoder of a whole byte string, with the
equations that say what the decoder finds at the front of a string.  It names nothing of
the repository.
-/

namespace FungiTransport.Lib

/-- The number written by a big-endian byte string. -/
def ofBe (bs : List UInt8) : ℕ := bs.foldl (fun acc b => acc * 256 + b.toNat) 0

/-- The `w` low bytes of `n`, most significant first. -/
def toBe : ℕ → ℕ → List UInt8
  | 0, _ => []
  | w + 1, n => toBe w (n / 256) ++ [UInt8.ofNat (n % 256)]

@[simp] lemma ofBe_nil : ofBe [] = 0 := rfl

@[simp] lemma ofBe_concat (bs : List UInt8) (b : UInt8) :
    ofBe (bs ++ [b]) = ofBe bs * 256 + b.toNat := by
  simp [ofBe]

@[simp] lemma length_toBe (w n : ℕ) : (toBe w n).length = w := by
  induction w generalizing n with
  | zero => rfl
  | succ w ih => simp [toBe, ih]

lemma ofBe_toBe {w n : ℕ} (h : n < 256 ^ w) : ofBe (toBe w n) = n := by
  induction w generalizing n with
  | zero =>
    have : n = 0 := by simpa using h
    simp [toBe, this]
  | succ w ih =>
    have hdiv : n / 256 < 256 ^ w := by
      rw [Nat.div_lt_iff_lt_mul (by norm_num)]
      simpa [pow_succ] using h
    have hbyte : (UInt8.ofNat (n % 256)).toNat = n % 256 := by
      rw [UInt8.toNat_ofNat']
      exact Nat.mod_mod _ _
    rw [toBe, ofBe_concat, ih hdiv, hbyte]
    omega

/-- A number that does not fit loses its high bytes. -/
lemma ofBe_toBe_le (w n : ℕ) : ofBe (toBe w n) ≤ n := by
  induction w generalizing n with
  | zero => exact Nat.zero_le n
  | succ w ih =>
    have hbyte : (UInt8.ofNat (n % 256)).toNat = n % 256 := by
      rw [UInt8.toNat_ofNat']
      exact Nat.mod_mod _ _
    have hhigh := ih (n / 256)
    rw [toBe, ofBe_concat, hbyte]
    omega

lemma toBe_ofBe (bs : List UInt8) : toBe bs.length (ofBe bs) = bs := by
  induction bs using List.reverseRecOn with
  | nil => rfl
  | append_singleton bs b ih =>
    have hb : b.toNat < 256 := b.toNat_lt
    have hdiv : (ofBe bs * 256 + b.toNat) / 256 = ofBe bs := by omega
    have hmod : (ofBe bs * 256 + b.toNat) % 256 = b.toNat := by omega
    rw [ofBe_concat, List.length_append, List.length_singleton, toBe, hdiv, hmod, ih,
      UInt8.ofNat_toNat]

/-! ## Frames -/

/-- A message as it travels: its length in `w` bytes, then its bytes. -/
def frame (w : ℕ) (msg : List UInt8) : List UInt8 := toBe w msg.length ++ msg

@[simp] lemma length_frame (w : ℕ) (msg : List UInt8) : (frame w msg).length = w + msg.length := by
  simp [frame]

/-- A header with as many bytes behind it as it announces is a frame. -/
lemma frame_of_header {w : ℕ} {hdr payload : List UInt8} (hh : hdr.length = w)
    (hp : payload.length = ofBe hdr) : frame w payload = hdr ++ payload := by
  rw [frame, hp, ← hh, toBe_ofBe]

/-- Fewer bytes than a header has, or fewer behind the header than it announces, hold no whole
frame. -/
lemma not_frame_prefix {w : ℕ} {hdr rest : List UInt8} (hh : hdr.length = w)
    (hlt : rest.length < ofBe hdr) (m : List UInt8) : ¬ frame w m <+: hdr ++ rest := by
  intro hpre
  have hlen := hpre.length_le
  rw [length_frame, List.length_append, hh] at hlen
  have hhead : toBe w m.length = hdr := by
    have htake := hpre.take w
    rw [frame, List.take_left' (length_toBe w _), List.take_left' hh] at htake
    exact htake.eq_of_length (by rw [length_toBe, hh])
  have hle : ofBe hdr ≤ m.length := hhead ▸ ofBe_toBe_le w m.length
  omega

/-- A frame at the front of a byte string tells the message and the rest apart. -/
lemma frame_append_inj {w : ℕ} {a b x y : List UInt8} (ha : a.length < 256 ^ w)
    (hb : b.length < 256 ^ w) (h : frame w a ++ x = frame w b ++ y) : a = b ∧ x = y := by
  simp only [frame, List.append_assoc] at h
  obtain ⟨hhead, hrest⟩ := List.append_inj h (by simp)
  have hlen : a.length = b.length := by rw [← ofBe_toBe ha, hhead, ofBe_toBe hb]
  exact List.append_inj hrest hlen

/-- Frames at the front of other frames are the first of them. -/
lemma flatMap_frame_append {w : ℕ} (hw : 0 < w) {as bs : List (List UInt8)} {x : List UInt8}
    (ha : ∀ a ∈ as, a.length < 256 ^ w) (hb : ∀ b ∈ bs, b.length < 256 ^ w)
    (h : as.flatMap (frame w) ++ x = bs.flatMap (frame w)) :
    ∃ cs, bs = as ++ cs ∧ x = cs.flatMap (frame w) := by
  induction as generalizing bs with
  | nil => exact ⟨bs, rfl, h⟩
  | cons a as ih =>
    cases bs with
    | nil =>
      have hlen := congrArg List.length h
      simp only [List.flatMap_cons, List.flatMap_nil, List.length_append, length_frame,
        List.length_nil] at hlen
      omega
    | cons b bs =>
      simp only [List.flatMap_cons, List.append_assoc] at h
      obtain ⟨rfl, hrest⟩ := frame_append_inj (ha a (by simp)) (hb b (by simp)) h
      obtain ⟨cs, rfl, hx⟩ := ih (fun c hc => ha c (by simp [hc])) (fun c hc => hb c (by simp [hc])) hrest
      exact ⟨cs, rfl, hx⟩

/-- What a one-shot decoder finds in a byte string, item by item. -/
inductive Item where
  /-- A whole message within the limit. -/
  | msg (payload : List UInt8)
  /-- A header that announces more than the limit; nothing is decoded behind it. -/
  | tooLong (len : ℕ)
  /-- The string ends inside a header or a payload. -/
  | truncated
deriving DecidableEq, Repr

/-- The messages among the items. -/
def Item.payload? : Item → Option (List UInt8)
  | .msg payload => some payload
  | _ => none

section Decode

variable {w : ℕ} [NeZero w] (max : ℕ)

/-- Decode a whole byte string: header and payload by turns, stopping at the first header
over the limit and at a string that ends inside a frame. -/
def decode (w : ℕ) [NeZero w] (max : ℕ) (bs : List UInt8) : List Item :=
  if bs = [] then []
  else if bs.length < w then [.truncated]
  else if max < ofBe (bs.take w) then [.tooLong (ofBe (bs.take w))]
  else if (bs.drop w).length < ofBe (bs.take w) then [.truncated]
  else .msg ((bs.drop w).take (ofBe (bs.take w))) ::
    decode w max ((bs.drop w).drop (ofBe (bs.take w)))
termination_by bs.length
decreasing_by
  have hpos : 0 < w := Nat.pos_of_ne_zero (NeZero.ne w)
  simp only [List.length_drop]
  omega

@[simp] lemma decode_nil : decode w max [] = [] := by
  rw [decode, if_pos rfl]

lemma decode_short {bs : List UInt8} (hne : bs ≠ []) (h : bs.length < w) :
    decode w max bs = [.truncated] := by
  rw [decode, if_neg hne, if_pos h]

variable {max}

private lemma ne_nil_of_header {hdr rest : List UInt8} (hh : hdr.length = w) :
    hdr ++ rest ≠ [] := by
  have hpos : 0 < w := Nat.pos_of_ne_zero (NeZero.ne w)
  intro h
  have hlen := congrArg List.length h
  simp only [List.length_append, List.length_nil] at hlen
  omega

lemma decode_tooLong {hdr rest : List UInt8} (hh : hdr.length = w) (h : max < ofBe hdr) :
    decode w max (hdr ++ rest) = [.tooLong (ofBe hdr)] := by
  have htake : (hdr ++ rest).take w = hdr := by rw [← hh, List.take_left]
  have hlen : ¬ (hdr ++ rest).length < w := by simp [hh]
  rw [decode, if_neg (ne_nil_of_header hh), if_neg hlen, htake, if_pos h]

lemma decode_truncated {hdr rest : List UInt8} (hh : hdr.length = w) (hle : ofBe hdr ≤ max)
    (h : rest.length < ofBe hdr) : decode w max (hdr ++ rest) = [.truncated] := by
  have htake : (hdr ++ rest).take w = hdr := by rw [← hh, List.take_left]
  have hdrop : (hdr ++ rest).drop w = rest := by rw [← hh, List.drop_left]
  have hlen : ¬ (hdr ++ rest).length < w := by simp [hh]
  rw [decode, if_neg (ne_nil_of_header hh), if_neg hlen, htake, hdrop,
    if_neg (Nat.not_lt.mpr hle), if_pos h]

lemma decode_msg {hdr payload rest : List UInt8} (hh : hdr.length = w) (hle : ofBe hdr ≤ max)
    (hp : payload.length = ofBe hdr) :
    decode w max (hdr ++ (payload ++ rest)) = .msg payload :: decode w max rest := by
  have htake : (hdr ++ (payload ++ rest)).take w = hdr := by rw [← hh, List.take_left]
  have hdrop : (hdr ++ (payload ++ rest)).drop w = payload ++ rest := by
    rw [← hh, List.drop_left]
  have hlen : ¬ (hdr ++ (payload ++ rest)).length < w := by simp [hh]
  have hlong : ¬ (payload ++ rest).length < ofBe hdr := by simp [hp]
  rw [decode, if_neg (ne_nil_of_header hh), if_neg hlen, htake, hdrop,
    if_neg (Nat.not_lt.mpr hle), if_neg hlong, ← hp, List.take_left, List.drop_left]

/-! ## Decoding what was framed -/

lemma decode_frame_append {m : List UInt8} (rest : List UInt8) (hm : m.length < 256 ^ w)
    (hle : m.length ≤ max) : decode w max (frame w m ++ rest) = .msg m :: decode w max rest := by
  have hbe : ofBe (toBe w m.length) = m.length := ofBe_toBe hm
  rw [frame, List.append_assoc]
  exact decode_msg (length_toBe w _) (by rw [hbe]; exact hle) hbe.symm

lemma decode_frame_tooLong {m : List UInt8} (rest : List UInt8) (hm : m.length < 256 ^ w)
    (hlt : max < m.length) : decode w max (frame w m ++ rest) = [.tooLong m.length] := by
  have hbe : ofBe (toBe w m.length) = m.length := ofBe_toBe hm
  rw [frame, List.append_assoc, decode_tooLong (length_toBe w _) (by rw [hbe]; exact hlt), hbe]

/-- A frame that breaks off decodes to nothing but an error. -/
lemma decode_torn {m torn : List UInt8} (hm : m.length < 256 ^ w) (hpre : torn <+: frame w m)
    (hlt : torn.length < (frame w m).length) :
    (decode w max torn).filterMap Item.payload? = [] := by
  by_cases hnil : torn = []
  · simp [hnil]
  by_cases hshort : torn.length < w
  · simp [decode_short max hnil hshort, Item.payload?]
  · have htorn : torn = toBe w m.length ++ torn.drop w := by
      have htake : torn.take w = toBe w m.length := by
        have h := hpre.take w
        rw [frame, List.take_left' (length_toBe w _)] at h
        refine h.eq_of_length ?_
        rw [length_toBe, List.length_take]
        omega
      rw [← htake, List.take_append_drop]
    have hbe : ofBe (toBe w m.length) = m.length := ofBe_toBe hm
    rw [htorn]
    by_cases hmax : max < m.length
    · rw [decode_tooLong (length_toBe w _) (by rw [hbe]; exact hmax)]
      simp [Item.payload?]
    · have hrest : (torn.drop w).length < m.length := by
        rw [length_frame] at hlt
        rw [List.length_drop]
        omega
      rw [decode_truncated (length_toBe w _) (by rw [hbe]; omega) (by rw [hbe]; exact hrest)]
      simp [Item.payload?]

/-- Decoding a list of frames gives the messages up to the first one over the limit, and an
error in its place. -/
lemma decode_frames {ms : List (List UInt8)} (hms : ∀ m ∈ ms, m.length < 256 ^ w) :
    decode w max (ms.flatMap (frame w)) =
      (ms.takeWhile (fun m => m.length ≤ max)).map Item.msg ++
        ((ms.dropWhile (fun m => m.length ≤ max)).head?.map
          fun m => Item.tooLong m.length).toList := by
  induction ms with
  | nil => simp
  | cons m ms ih =>
    have hm : m.length < 256 ^ w := hms m (by simp)
    rw [List.flatMap_cons]
    by_cases hle : m.length ≤ max
    · rw [decode_frame_append _ hm hle, ih fun m' h' => hms m' (by simp [h'])]
      simp [hle]
    · rw [decode_frame_tooLong _ hm (by omega)]
      simp [hle]

/-- Whatever follows a list of frames, as long as it decodes to no message, the decoder finds
only messages of the list, in order and from its beginning. -/
lemma decode_frames_append {ms : List (List UInt8)} {torn : List UInt8}
    (hms : ∀ m ∈ ms, m.length < 256 ^ w)
    (htorn : (decode w max torn).filterMap Item.payload? = []) :
    (decode w max (ms.flatMap (frame w) ++ torn)).filterMap Item.payload? <+: ms := by
  induction ms with
  | nil => simp [htorn]
  | cons m ms ih =>
    have hm : m.length < 256 ^ w := hms m (by simp)
    rw [List.flatMap_cons, List.append_assoc]
    by_cases hle : m.length ≤ max
    · rw [decode_frame_append _ hm hle]
      simpa [Item.payload?] using ih fun m' h' => hms m' (by simp [h'])
    · rw [decode_frame_tooLong _ hm (by omega)]
      simp [List.filterMap_cons, Item.payload?]

end Decode

end FungiTransport.Lib
