import EGServer.Lib.StringView

/-!
# Hyperlinks in chat messages

`CheckAllLinks` goes over a message twice: once over its control sequences, once over its links,
which `ParseSingleHyperlink` takes apart. What the links are about is left to `ValidateLinkInfo`, a
parameter here.
-/

namespace EGServer.Chat

open Scan StringView

structure HyperlinkColor where
  r : UInt8
  g : UInt8
  b : UInt8
  a : UInt8
deriving DecidableEq

def HyperlinkColor.ofUInt32 (c : Nat) : HyperlinkColor :=
  ⟨.ofNat (c >>> 16), .ofNat (c >>> 8), .ofNat c, .ofNat (c >>> 24)⟩

structure HyperlinkInfo where
  tail : List Char
  color : HyperlinkColor
  tag : List Char
  data : List Char
  text : List Char
deriving DecidableEq

/-! ## One link -/

def toHex (c : Char) : Nat :=
  if '0' ≤ c ∧ c ≤ '9' then c.toNat - '0'.toNat + 0x10
  else if 'a' ≤ c ∧ c ≤ 'f' then c.toNat - 'a'.toNat + 0x1a
  else 0x00

/-- The loop over the color's digits, at the positions `is`. -/
def parseColor (str : List Char) (color : Nat) : List Nat → Scan Nat
  | [] => .done color
  | i :: is => do
    let c ← charAt str i
    let hex := toHex c
    require (hex ≠ 0)
    parseColor str (((color <<< 4) ||| (hex &&& 0xf)) % 2 ^ 32) is

/-- Split the tag if `:` is present: tag and data. -/
def splitTag (tag : List Char) : Scan (List Char × List Char) :=
  match find tag ':' with
  | none => .done (tag, [])
  | some dataStart => do
    let data ← substrFrom tag (dataStart + 1)
    let tag ← substr tag 0 dataStart
    return (tag, data)

/-- `{}` is `reject`. -/
def ParseSingleHyperlink (str : List Char) : Scan HyperlinkInfo := do
  -- color tag
  let str ← expect ['|', 'c'] str
  require (8 ≤ str.length)
  let color ← parseColor str 0 (List.range 8)
  let str ← removePrefix str 8
  let str ← expect ['|', 'H'] str
  -- tag+data part follows
  let tagData ← upTo '|' str
  let split ← splitTag tagData.1
  -- ok, next should be link data end tag...
  let str ← expect ['h'] tagData.2
  -- skip to final |
  let pos ← ofOption (find str '|')
  let endTag ← substr str pos 4
  require (endTag = ['|', 'h', '|', 'r'])
  -- check text brackets
  let first ← charAt str 0
  require (first = '[')
  let last ← charAt str (sizeSub pos 1)
  require (last = ']')
  let text ← substr str 1 (sizeSub pos 2)
  let tail ← substrFrom str (pos + 4)
  return { tail, color := .ofUInt32 color, tag := split.1, data := split.2, text }

/-! ## What a link looks like -/

def IsLowerHex (c : Char) : Prop := ('0' ≤ c ∧ c ≤ '9') ∨ ('a' ≤ c ∧ c ≤ 'f')

/-- The value of a lowercase hexadecimal digit. -/
def hexValue (c : Char) : Nat :=
  if c ≤ '9' then c.toNat - '0'.toNat else 10 + (c.toNat - 'a'.toNat)

/-- A link: `|c` color `|H` tag `:` data `|h[` text `]|h|r`, the data being optional. -/
structure Link where
  color : List Char
  length_color : color.length = 8
  hex_color : ∀ c ∈ color, IsLowerHex c
  tag : List Char
  plain_tag : '|' ∉ tag ∧ ':' ∉ tag
  data : Option (List Char)
  plain_data : ∀ d ∈ data, '|' ∉ d
  text : List Char
  plain_text : '|' ∉ text

namespace Link

variable (L : Link)

def tagData : List Char := L.tag ++ (L.data.map (':' :: ·)).getD []

def bracketed : List Char := '[' :: (L.text ++ [']'])

/-- The link in front of `tail`. -/
def render (tail : List Char) : List Char :=
  ['|', 'c'] ++ (L.color ++ (['|', 'H'] ++ (L.tagData ++ '|' :: (['h'] ++
    (L.bracketed ++ '|' :: (['h', '|', 'r'] ++ tail))))))

/-- The color's number, most significant digit first. -/
def colorValue : Nat := L.color.foldl (fun n c => 16 * n + hexValue c) 0

/-- What a link in front of `tail` is read as. -/
def info (tail : List Char) : HyperlinkInfo where
  tail := tail
  color := .ofUInt32 L.colorValue
  tag := L.tag
  data := L.data.getD []
  text := L.text

theorem plain_tagData : '|' ∉ L.tagData := by
  unfold tagData
  rw [List.mem_append, not_or]
  refine ⟨L.plain_tag.1, ?_⟩
  cases hdata : L.data with
  | none => rintro ⟨⟩
  | some d =>
    have hplain := L.plain_data d hdata
    grind

end Link

theorem Link.plain_bracketed (L : Link) : '|' ∉ L.bracketed := by
  unfold Link.bracketed
  rw [List.mem_cons, List.mem_append, not_or, not_or]
  exact ⟨by decide, L.plain_text, by decide⟩

theorem Link.length_bracketed (L : Link) : L.bracketed.length = L.text.length + 2 := by
  rw [Link.bracketed, List.length_cons, List.length_append, List.length_singleton]

/-! ## Reading a link -/

theorem toHex_of_isLowerHex {c : Char} (h : IsLowerHex c) :
    toHex c ≠ 0 ∧ toHex c &&& 0xf = hexValue c ∧ hexValue c < 16 := by
  have hmask (n : Nat) : n &&& 0xf = n % 16 := Nat.and_two_pow_sub_one_eq_mod n 4
  have hle (a b : Char) : a ≤ b ↔ a.toNat ≤ b.toNat := Iff.rfl
  have h0 : '0'.toNat = 48 := rfl
  have h9 : '9'.toNat = 57 := rfl
  have ha : 'a'.toNat = 97 := rfl
  have hf : 'f'.toNat = 102 := rfl
  unfold IsLowerHex at h
  unfold toHex hexValue
  grind

theorem isLowerHex_of_toHex {c : Char} (h : toHex c ≠ 0) : IsLowerHex c := by
  unfold toHex at h
  split at h
  · rename_i hdigit
    exact .inl hdigit
  · split at h
    · rename_i hletter
      exact .inr hletter
    · exact absurd rfl h

theorem shift_digit {color d k : Nat} (hcolor : color < 16 ^ k) (hk : k < 8) (hd : d < 16) :
    ((color <<< 4) ||| d) % 2 ^ 32 = 16 * color + d ∧ 16 * color + d < 16 ^ (k + 1) := by
  have hnew : 16 * color + d < 16 ^ (k + 1) := by
    rw [Nat.pow_succ]
    omega
  have hpow : 16 ^ (k + 1) ≤ 16 ^ 8 := Nat.pow_le_pow_right (by omega) hk
  grind [Nat.shiftLeft_eq, Nat.shiftLeft_add_eq_or_of_lt]

/-- The loop reads the digits `cs` that stand behind `front`. -/
theorem parseColor_eq {cs front back : List Char} {color k : Nat} (hcs : ∀ c ∈ cs, IsLowerHex c)
    (hcolor : color < 16 ^ k) (hk : k + cs.length ≤ 8) :
    parseColor (front ++ (cs ++ back)) color (List.range' front.length cs.length) =
      done (cs.foldl (fun n c => 16 * n + hexValue c) color) := by
  induction cs generalizing front color k with
  | nil => rfl
  | cons c cs ih =>
    rw [List.length_cons] at hk
    obtain ⟨hne, hmask, hlt⟩ := toHex_of_isLowerHex (hcs c List.mem_cons_self)
    obtain ⟨hshift, hnew⟩ := shift_digit hcolor (by omega) hlt
    have hat : charAt (front ++ (c :: cs ++ back)) front.length = done c := by
      rw [charAt_eq_done, List.getElem?_append_right le_rfl, Nat.sub_self]
      rfl
    have hrest := @ih (front ++ [c]) _ _ (fun d hd => hcs d (List.mem_cons_of_mem _ hd))
      hnew (by omega)
    rw [List.length_append, List.length_singleton, List.append_assoc] at hrest
    rw [List.length_cons, List.range'_succ, parseColor, hat, done_bind]
    dsimp only
    rw [require_eq_done.mpr hne, done_bind, hmask, hshift]
    exact hrest

theorem parseColor_hex {str : List Char} {n i color r : Nat}
    (h : parseColor str color (List.range' i n) = done r) :
    ∀ c ∈ (str.drop i).take n, IsLowerHex c := by
  induction n generalizing i color with
  | zero => rintro c hc; rw [List.take_zero] at hc; cases hc
  | succ n ih =>
    rw [List.range'_succ, parseColor] at h
    obtain ⟨c, hc, h⟩ := bind_eq_done.mp h
    obtain ⟨⟨⟩, hne, h⟩ := bind_eq_done.mp h
    have hhex := isLowerHex_of_toHex (require_eq_done.mp hne)
    obtain ⟨hi, rfl⟩ := List.getElem?_eq_some_iff.mp (charAt_eq_done.mp hc)
    intro d hd
    rw [List.drop_eq_getElem_cons hi, List.take_succ_cons] at hd
    rcases List.mem_cons.mp hd with rfl | hd
    · exact hhex
    · exact ih h d hd

theorem parseColor_inRange {str : List Char} {n i color : Nat} (h : i + n ≤ str.length) :
    parseColor str color (List.range' i n) ≠ outOfRange := by
  induction n generalizing i color with
  | zero => rintro ⟨⟩
  | succ n ih =>
    rw [List.range'_succ, parseColor]
    refine bind_inRange (charAt_inRange (by omega)) ?_
    intro c _
    refine bind_inRange (require_inRange _) ?_
    intro _ _
    exact ih (by omega)

theorem splitTag_tagData (L : Link) : splitTag L.tagData = done (L.tag, L.data.getD []) := by
  unfold splitTag Link.tagData
  cases hdata : L.data with
  | none =>
    rw [Option.map_none, Option.getD_none, List.append_nil, find_eq_none.mpr L.plain_tag.2]
  | some d =>
    rw [Option.map_some, Option.getD_some, find_append L.plain_tag.2]
    dsimp only
    rw [substrFrom_eq (by rw [List.length_append, List.length_cons]; omega), done_bind,
      substr_eq (Nat.zero_le _), done_bind, List.drop_zero, List.take_left, List.append_cons,
      ← List.length_singleton (a := ':'), ← List.length_append, List.drop_left]
    rfl

theorem splitTag_inRange (tag : List Char) : splitTag tag ≠ outOfRange := by
  unfold splitTag
  split
  · rintro ⟨⟩
  · rename_i i hi
    obtain ⟨a, b, rfl, rfl, -⟩ := find_eq_some.mp hi
    rw [substrFrom_eq (by rw [List.length_append, List.length_cons]; omega), done_bind,
      substr_eq (Nat.zero_le _)]
    rintro ⟨⟩

theorem parseColor_color (L : Link) (back : List Char) :
    parseColor (L.color ++ back) 0 (List.range 8) = done L.colorValue := by
  have h := @parseColor_eq L.color [] back 0 0 L.hex_color (by decide)
    (by rw [L.length_color])
  rw [L.length_color, List.nil_append, List.length_nil, ← List.range_eq_range'] at h
  exact h

/-- **A link is read** as what it says, whatever stands behind it. -/
theorem ParseSingleHyperlink_render (L : Link) (tail : List Char) :
    ParseSingleHyperlink (L.render tail) = done (L.info tail) := by
  have hpos := L.length_bracketed
  have hend : List.take 4 ('|' :: (['h', '|', 'r'] ++ tail)) = ['|', 'h', '|', 'r'] := rfl
  unfold ParseSingleHyperlink Link.render
  rw [expect_append, done_bind, require_eq_done.mpr (by
      rw [List.length_append, L.length_color]; omega), done_bind, parseColor_color, done_bind,
    removePrefix_eq (by rw [List.length_append, L.length_color]; omega), done_bind,
    ← L.length_color, List.drop_left, expect_append, done_bind, upTo_append L.plain_tagData,
    done_bind]
  dsimp only
  rw [splitTag_tagData, done_bind, expect_append, done_bind, find_append L.plain_bracketed,
    ofOption, done_bind, substr_eq (by rw [List.length_append]; omega), done_bind, List.drop_left,
    require_eq_done.mpr hend, done_bind]
  have hfirst : charAt (L.bracketed ++ '|' :: (['h', '|', 'r'] ++ tail)) 0 = done '[' := rfl
  have hlast : charAt (L.bracketed ++ '|' :: (['h', '|', 'r'] ++ tail))
      (sizeSub L.bracketed.length 1) = done ']' := by
    have hsub : sizeSub L.bracketed.length 1 = L.text.length + 1 := by
      rw [sizeSub, if_pos (by omega), hpos]
      omega
    rw [hsub, charAt_eq_done, List.getElem?_append_left (by omega), Link.bracketed,
      List.getElem?_cons_succ, List.getElem?_append_right le_rfl, Nat.sub_self]
    rfl
  have hsub : sizeSub L.bracketed.length 2 = L.text.length := by
    rw [sizeSub, if_pos (by omega), hpos]
    omega
  have htext : substr (L.bracketed ++ '|' :: (['h', '|', 'r'] ++ tail)) 1
      (sizeSub L.bracketed.length 2) = done L.text := by
    grind [Link.bracketed, substr_eq]
  have htail : substrFrom (L.bracketed ++ '|' :: (['h', '|', 'r'] ++ tail))
      (L.bracketed.length + 4) = done tail := by
    grind [substrFrom_eq]
  rw [hfirst, done_bind, require_eq_done.mpr rfl, done_bind, hlast, done_bind,
    require_eq_done.mpr rfl, done_bind, htext, done_bind, htail, done_bind]
  rfl

theorem eq_bracketed {bracketed back : List Char}
    (hfirst : charAt (bracketed ++ '|' :: back) 0 = done '[')
    (hlast : charAt (bracketed ++ '|' :: back) (sizeSub bracketed.length 1) = done ']') :
    ∃ text, bracketed = '[' :: (text ++ [']']) := by
  rw [charAt_eq_done] at hfirst hlast
  cases bracketed with
  | nil => exact absurd hfirst (by rintro ⟨⟩)
  | cons c rest =>
    obtain rfl : c = '[' := Option.some.inj hfirst
    rw [List.length_cons, sizeSub, if_pos (by omega), Nat.add_sub_cancel] at hlast
    rcases List.eq_nil_or_concat rest with rfl | ⟨text, d, rfl⟩
    · exact absurd hlast (by rintro ⟨⟩)
    · rw [List.concat_eq_append] at hlast ⊢
      rw [List.length_append, List.length_singleton, List.cons_append, List.getElem?_cons_succ,
        List.append_assoc, List.getElem?_append_right le_rfl, Nat.sub_self] at hlast
      obtain rfl : d = ']' := Option.some.inj hlast
      exact ⟨text, rfl⟩

theorem eq_endTag {front back : List Char}
    (h : substr (front ++ '|' :: back) front.length 4 = done ['|', 'h', '|', 'r']) :
    ∃ tail, back = ['h', '|', 'r'] ++ tail := by
  rw [substr_eq (by rw [List.length_append]; omega), List.drop_left, List.take_succ_cons,
    Scan.done.injEq, List.cons.injEq] at h
  refine ⟨back.drop 3, ?_⟩
  rw [← h.2, List.take_append_drop]

/-- Any text before a `|` is a tag and its data. -/
theorem eq_tagData {tagData : List Char} (h : '|' ∉ tagData) :
    ∃ tag data, ('|' ∉ tag ∧ ':' ∉ tag) ∧ (∀ d ∈ data, '|' ∉ d) ∧
      tagData = tag ++ ((data : Option (List Char)).map (':' :: ·)).getD [] := by
  by_cases hcolon : ':' ∈ tagData
  · obtain ⟨tag, data, rfl, htag⟩ := List.eq_append_cons_of_mem hcolon
    rw [List.mem_append, List.mem_cons, not_or, not_or] at h
    refine ⟨tag, some data, ⟨h.1, htag⟩, ?_, rfl⟩
    rintro d ⟨⟩
    exact h.2.2
  · refine ⟨tagData, none, ⟨h, hcolon⟩, by rintro d ⟨⟩, ?_⟩
    rw [Option.map_none, Option.getD_none, List.append_nil]

/-- **What is read is a link**, in front of the tail returned. -/
theorem eq_render_of_ParseSingleHyperlink {str : List Char} {info : HyperlinkInfo}
    (h : ParseSingleHyperlink str = done info) :
    ∃ L : Link, str = L.render info.tail ∧ info = L.info info.tail := by
  have h0 := h
  obtain ⟨str₁, hc, h⟩ := bind_eq_done.mp h
  obtain ⟨⟨⟩, hlength, h⟩ := bind_eq_done.mp h
  obtain ⟨color, hcolor, h⟩ := bind_eq_done.mp h
  obtain ⟨str₂, hcut, h⟩ := bind_eq_done.mp h
  obtain ⟨str₃, hH, h⟩ := bind_eq_done.mp h
  obtain ⟨⟨tagData, str₄⟩, htagData, h⟩ := bind_eq_done.mp h
  obtain ⟨_, _, h⟩ := bind_eq_done.mp h
  obtain ⟨str₅, hh, h⟩ := bind_eq_done.mp h
  dsimp only at hh
  obtain ⟨pos, hpos, h⟩ := bind_eq_done.mp h
  obtain ⟨endTag, hendTag, h⟩ := bind_eq_done.mp h
  obtain ⟨⟨⟩, hend, h⟩ := bind_eq_done.mp h
  obtain ⟨first, hfirst, h⟩ := bind_eq_done.mp h
  obtain ⟨⟨⟩, hopen, h⟩ := bind_eq_done.mp h
  obtain ⟨last, hlast, h⟩ := bind_eq_done.mp h
  obtain ⟨⟨⟩, hclose, -⟩ := bind_eq_done.mp h
  have hlength := require_eq_done.mp hlength
  have hend := require_eq_done.mp hend
  have hopen := require_eq_done.mp hopen
  have hclose := require_eq_done.mp hclose
  subst hend hopen hclose
  rw [removePrefix_eq hlength] at hcut
  cases hcut
  obtain ⟨bracketed, back, rfl, rfl, hplain⟩ := find_eq_some.mp (ofOption_eq_done.mp hpos)
  obtain ⟨text, rfl⟩ := eq_bracketed hfirst hlast
  obtain ⟨tail, rfl⟩ := eq_endTag hendTag
  obtain ⟨rfl, htagDataPlain⟩ := upTo_eq_done.mp htagData
  obtain ⟨tag, data, htag, hdata, rfl⟩ := eq_tagData htagDataPlain
  rw [List.range_eq_range'] at hcolor
  have hhex := parseColor_hex hcolor
  rw [List.drop_zero] at hhex
  rw [List.mem_cons, List.mem_append, not_or, not_or] at hplain
  let L : Link := {
    color := str₁.take 8
    length_color := by rw [List.length_take]; omega
    hex_color := hhex
    tag := tag
    plain_tag := htag
    data := data
    plain_data := hdata
    text := text
    plain_text := hplain.2.1 }
  have hrender : str = L.render tail := by
    have hsplit := List.take_append_drop 8 str₁
    rw [expect_eq_done.mp hc, ← hsplit, expect_eq_done.mp hH, expect_eq_done.mp hh]
    rfl
  rw [hrender, ParseSingleHyperlink_render, Scan.done.injEq] at h0
  subst h0
  exact ⟨L, hrender, rfl⟩

theorem length_tail_lt {str : List Char} {info : HyperlinkInfo}
    (h : ParseSingleHyperlink str = done info) : info.tail.length < str.length := by
  obtain ⟨L, hstr, -⟩ := eq_render_of_ParseSingleHyperlink h
  rw [hstr, Link.render]
  simp only [List.length_append, List.length_cons]
  omega

theorem ParseSingleHyperlink_inRange (str : List Char) :
    ParseSingleHyperlink str ≠ outOfRange := by
  refine bind_inRange (expect_inRange _ _) ?_
  intro str₁ _
  refine bind_inRange (require_inRange _) ?_
  intro _ hlength
  have hlength := require_eq_done.mp hlength
  refine bind_inRange (by rw [List.range_eq_range']; exact parseColor_inRange (by omega)) ?_
  intro color _
  rw [removePrefix_eq hlength, done_bind]
  refine bind_inRange (expect_inRange _ _) ?_
  intro str₂ _
  refine bind_inRange (upTo_inRange _ _) ?_
  intro tagData _
  refine bind_inRange (splitTag_inRange _) ?_
  intro split _
  refine bind_inRange (expect_inRange _ _) ?_
  intro str₃ _
  refine bind_inRange (ofOption_inRange _) ?_
  intro pos hpos
  obtain ⟨front, back, rfl, rfl, -⟩ := find_eq_some.mp (ofOption_eq_done.mp hpos)
  have hsize : (front ++ '|' :: back).length = front.length + 1 + back.length := by
    rw [List.length_append, List.length_cons]
    omega
  refine bind_inRange (by rw [substr_eq (by omega)]; rintro ⟨⟩) ?_
  intro endTag hendTag
  refine bind_inRange (require_inRange _) ?_
  intro _ hend
  rw [require_eq_done.mp hend] at hendTag
  obtain ⟨tail, rfl⟩ := eq_endTag hendTag
  refine bind_inRange (charAt_inRange (by omega)) ?_
  intro first hfirst
  refine bind_inRange (require_inRange _) ?_
  intro _ hopen
  rw [require_eq_done.mp hopen] at hfirst
  -- the first character is no `|`, so `pos - 1` does not wrap
  have hpos : front ≠ [] := by
    rintro rfl
    exact absurd (charAt_eq_done.mp hfirst) (by rintro ⟨⟩)
  have hfront := List.length_pos_iff.mpr hpos
  refine bind_inRange (charAt_inRange (by rw [sizeSub, if_pos (by omega)]; omega)) ?_
  intro last hlast
  refine bind_inRange (require_inRange _) ?_
  intro _ _
  rw [substr_eq (by omega), done_bind,
    substrFrom_eq (by simp only [List.length_append, List.length_cons]; omega), done_bind]
  rintro ⟨⟩

end EGServer.Chat
