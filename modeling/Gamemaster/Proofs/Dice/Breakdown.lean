import Gamemaster.Proofs.Dice.Pieces
import Gamemaster.Proofs.Dice.Accounts
import Gamemaster.Dice.Narrative
/-!
The account of a roll, read back. Its brackets hold a piece for each term, and the decimals of the
pieces are the values of the roll, so that rolls of one formula with the same account have the
same values.
-/
namespace Gamemaster

namespace Text

theorem trimChars_blank_cons (cs : List Char) : trimChars (' ' :: cs) = trimChars cs := by
  rw [trimChars, List.dropWhile_cons_of_pos (by decide), ← trimChars]

theorem splitOn_blank_cons {x : Char} (hx : x ≠ ' ') {f : List Char → α}
    (hf : ∀ cs, f (' ' :: cs) = f cs) (cs : List Char) :
    ((' ' :: cs).splitOn x).map f = (cs.splitOn x).map f := by
  rw [List.splitOn_cons_eq_if_modifyHead, if_neg (by simpa using hx.symm)]
  cases cs.splitOn x with
  | nil => rfl
  | cons first rest => simp [hf]

/-- Texts that are written with a character and a blank between them are found again between the
occurrences of the character. -/
theorem splitOn_intercalate_blank {x : Char} (hx : x ≠ ' ') {f : List Char → α}
    (hf : ∀ cs, f (' ' :: cs) = f cs) {row : List (List Char)} (hne : row ≠ [])
    (hfree : ∀ cs ∈ row, x ∉ cs) :
    (([x, ' '].intercalate row).splitOn x).map f = row.map f := by
  induction row with
  | nil => exact absurd rfl hne
  | cons cs row ih =>
      rw [List.forall_mem_cons] at hfree
      cases row with
      | nil => simp [List.splitOn_eq_singleton hfree.1]
      | cons ds row =>
          have hrest := ih (List.cons_ne_nil ds row) hfree.2
          rw [List.intercalate_cons_cons, List.append_assoc, List.cons_append,
            List.singleton_append, List.splitOn_append_cons_self_of_not_mem hfree.1,
            List.map_cons, splitOn_blank_cons hx hf, hrest]
          rfl

end Text

namespace Dice

open Gamemaster.Literal (Numeral)
open Gamemaster.Random (Source)

/-! ### Reading -/

/-- The text from the first opening bracket to the last closing one. -/
def bracketed (cs : List Char) : List Char :=
  ((cs.dropWhile fun c => c ≠ '[').tail.rdropWhile fun c => c ≠ ']').dropLast

def decimal? (cs : List Char) : Option Int := Literal.integer? (Text.trimChars cs)

def decimals? (cs : List Char) : Option (List Int) := (cs.splitOn ',').mapM decimal?

def firstWord (cs : List Char) : List Char :=
  (cs.dropWhile Text.isBlank).takeWhile fun c => !Text.isBlank c

/-- What stands after the arrow, or the text itself if it has none. -/
def listed (cs : List Char) : List Char :=
  match cs.dropWhile fun c => c ≠ '>' with
  | [] => cs
  | _ :: rest => rest

/-- A piece of a breakdown as it is read: what it names, and the values that it lists. -/
structure Told where
  name : String
  values : List Int
  deriving DecidableEq

def Told.read? (cs : List Char) : Option Told :=
  (decimals? (listed cs)).map fun values => ⟨String.ofList (firstWord cs), values⟩

def breakdown? (narrative : String) : Option (List Told) :=
  ((bracketed narrative.toList).splitOn ';').mapM Told.read?

def faces? (narrative : String) : Option (List Int) :=
  decimals? (bracketed (bracketed narrative.toList))

/-- A group of dice is named, with a decimal for each of its dice. A modifier is told as its
signed value. -/
inductive Term.ToldAs : Term → Told → Prop
  | dice {sign : Sign} {count sides : Nat} {values : List Int} (each : values.length = count) :
      ToldAs (.dice sign count sides) ⟨(Term.dice sign count sides).render, values⟩
  | modifier (value : Int) : ToldAs (.modifier value) ⟨signed value, [value]⟩

section Decimals

theorem integer?_toString (n : Int) : Literal.integer? (toString n).toList = some n := by
  rw [toList_toString]
  split
  · rw [integer?_of_written .minus (numeral_toDigits _), Option.some_inj]
    simp only [Sign.toInt]
    omega
  · rw [integer?_of_written .omitted (numeral_toDigits _), Option.some_inj]
    simp only [Sign.toInt]
    omega

theorem integer?_signed (n : Int) : Literal.integer? (signed n).toList = some n := by
  obtain ⟨sign, hn, hsigned⟩ := exists_sign_signed n
  rw [hsigned, integer?_of_written sign.written_text (numeral_toDigits _), ← hn]

theorem isTermChar_toString (n : Int) : ∀ c ∈ (toString n).toList, isTermChar c = true := by
  rw [toList_toString, List.forall_mem_append]
  refine ⟨?_, isTermChar_of_mem_numeral (numeral_toDigits _)⟩
  split
  · exact List.forall_mem_singleton.mpr (by decide)
  · exact List.forall_mem_nil _

theorem isTermChar_render (t : Term) : ∀ c ∈ t.render.toList, isTermChar c = true := by
  have hdigits := fun n => isTermChar_of_mem_numeral (numeral_toDigits n)
  cases t with
  | dice sign count sides =>
      rw [Term.toList_render_dice]
      simp only [List.forall_mem_append, List.forall_mem_cons]
      exact ⟨⟨sign.written_text.isTermChar_of_mem, hdigits count⟩, by decide, hdigits sides⟩
  | modifier value =>
      obtain ⟨sign, -, hsigned⟩ := exists_sign_signed value
      rw [Term.render, hsigned]
      exact List.forall_mem_append.mpr ⟨sign.written_text.isTermChar_of_mem, hdigits _⟩

theorem notMem_of_isTermChar {x : Char} (hx : isTermChar x = false) {cs : List Char}
    (h : ∀ c ∈ cs, isTermChar c = true) : x ∉ cs := by
  intro hmem
  rw [h x hmem] at hx
  cases hx

theorem trimChars_of_isTermChar {cs : List Char} (h : ∀ c ∈ cs, isTermChar c = true) :
    Text.trimChars cs = cs :=
  Text.trimChars_of_not_blank fun c hc => isBlank_of_isTermChar (h c hc)

theorem mapM_congr_of_map {f : α → Option β} {xs ys : List α} (h : xs.map f = ys.map f) :
    xs.mapM f = ys.mapM f := by
  have hvalues : ∀ zs : List α, zs.mapM f = (zs.map f).mapM id := fun zs =>
    (List.mapM_map (f := f) (g := id)).symm
  rw [hvalues, hvalues, h]

theorem decimal?_blank_cons (cs : List Char) : decimal? (' ' :: cs) = decimal? cs := by
  rw [decimal?, Text.trimChars_blank_cons, ← decimal?]

theorem decimal?_toString (n : Int) : decimal? (toString n).toList = some n := by
  rw [decimal?, trimChars_of_isTermChar (isTermChar_toString n), integer?_toString]

theorem decimal?_signed (n : Int) : decimal? (signed n).toList = some n := by
  have hchars : ∀ c ∈ (signed n).toList, isTermChar c = true := isTermChar_render (.modifier n)
  rw [decimal?, trimChars_of_isTermChar hchars, integer?_signed]

theorem decimals?_of_decimal? {cs : List Char} (hcomma : ',' ∉ cs) {n : Int}
    (h : decimal? cs = some n) :
    decimals? cs = some [n] := by
  simp [decimals?, List.splitOn_eq_singleton hcomma, h]

theorem decimals?_blank_cons (cs : List Char) : decimals? (' ' :: cs) = decimals? cs :=
  mapM_congr_of_map (Text.splitOn_blank_cons (by decide) decimal?_blank_cons cs)

theorem decimals?_intercalate {ns : List Int} (hne : ns ≠ []) :
    decimals? (", ".intercalate (ns.map toString)).toList = some ns := by
  let row := (ns.map toString).map String.toList
  have hfree : ∀ cs ∈ row, ',' ∉ cs := by
    intro cs hcs
    obtain ⟨text, htext, rfl⟩ := List.mem_map.mp hcs
    obtain ⟨n, -, rfl⟩ := List.mem_map.mp htext
    exact notMem_of_isTermChar (by decide) (isTermChar_toString n)
  have hcut :=
    Text.splitOn_intercalate_blank (by decide : ',' ≠ ' ') decimal?_blank_cons
      (by simpa [row] using hne)
    hfree
  have hread : row.mapM decimal? = some ns := by
    have hinverse : decimal? ∘ String.toList ∘ toString = some := funext decimal?_toString
    rw [List.mapM_map, List.mapM_map, Function.comp_assoc, hinverse]
    exact (List.mapM_pure (m := Option) (f := id)).trans (congrArg some (List.map_id ns))
  rw [String.toList_intercalate]
  exact (mapM_congr_of_map hcut).trans hread

end Decimals

section Cuts

theorem dropWhile_ne_append {x : Char} {front : List Char} (hfront : x ∉ front)
    (rest : List Char) :
    (front ++ x :: rest).dropWhile (fun c => c ≠ x) = x :: rest := by
  rw [List.dropWhile_append_of_pos, List.dropWhile_cons_of_neg (by simp)]
  intro c hc
  simpa using ne_of_mem_of_not_mem hc hfront

theorem notMem_intercalate {x : Char} {sep : List Char} {row : List (List Char)} (hsep : x ∉ sep)
    (hrow : ∀ cs ∈ row, x ∉ cs) : x ∉ sep.intercalate row := by
  induction row with
  | nil => simp
  | cons cs row ih =>
      rw [List.forall_mem_cons] at hrow
      cases row with
      | nil => simpa using hrow.1
      | cons ds row =>
          rw [List.intercalate_cons_cons]
          simp only [List.mem_append, not_or]
          exact ⟨⟨hrow.1, hsep⟩, ih hrow.2⟩

theorem bracketed_eq {front inner back : List Char} (hfront : '[' ∉ front) (hback : ']' ∉ back) :
    bracketed (front ++ '[' :: (inner ++ ']' :: back)) = inner := by
  have hclose : (inner ++ ']' :: back).rdropWhile (fun c => c ≠ ']') = inner ++ [']'] := by
    rw [List.rdropWhile, List.reverse_append, List.reverse_cons, List.append_assoc,
      List.singleton_append, dropWhile_ne_append (by simpa using hback)]
    simp
  rw [bracketed, dropWhile_ne_append hfront, List.tail_cons, hclose, List.dropLast_concat]

theorem firstWord_append {word : List Char} (hne : word ≠ [])
    (hword : ∀ c ∈ word, Text.isBlank c = false) (rest : List Char)
    (hrest : ∀ c ∈ rest.head?, Text.isBlank c = true) : firstWord (word ++ rest) = word := by
  have hstop : rest.takeWhile (fun c => !Text.isBlank c) = [] := by
    cases rest with
    | nil => rfl
    | cons c rest => exact List.takeWhile_cons_of_neg (by simp [hrest c rfl])
  have hstart : (word ++ rest).dropWhile Text.isBlank = word ++ rest := by
    obtain ⟨c, word, rfl⟩ := List.exists_cons_of_ne_nil hne
    exact List.dropWhile_cons_of_neg (by simp [hword c List.mem_cons_self])
  rw [firstWord, hstart, List.takeWhile_append_of_pos (by simpa using hword), hstop,
    List.append_nil]

theorem listed_of_arrow {front : List Char} (hfront : '>' ∉ front) (rest : List Char) :
    listed (front ++ '>' :: rest) = rest := by
  rw [listed, dropWhile_ne_append hfront]

theorem listed_of_no_arrow {cs : List Char} (h : '>' ∉ cs) : listed cs = cs := by
  have hnone : (cs.dropWhile fun c => c ≠ '>') = [] := by
    rw [List.dropWhile_eq_nil_iff]
    intro c hc
    simpa using ne_of_mem_of_not_mem hc h
  rw [listed, hnone]

theorem read?_blank_cons (cs : List Char) : Told.read? (' ' :: cs) = Told.read? cs := by
  have hlisted : decimals? (listed (' ' :: cs)) = decimals? (listed cs) := by
    rw [listed, listed, List.dropWhile_cons_of_pos (by decide)]
    split
    · exact decimals?_blank_cons cs
    · rfl
  have hname : firstWord (' ' :: cs) = firstWord cs := by
    rw [firstWord, List.dropWhile_cons_of_pos (by decide), ← firstWord]
  rw [Told.read?, hlisted, hname, ← Told.read?]

end Cuts

section Pieces

theorem Term.render_ne_nil (t : Term) : t.render.toList ≠ [] := by
  intro hnil
  have hsign := t.head?_render
  rw [hnil] at hsign
  cases hsign

theorem toList_render_dice (sign : Sign) (count sides : Nat) (values : List Int)
    (mode : Advantage) :
    ((Piece.dice sign count sides values).render mode).toList =
      (Term.dice sign count sides).render.toList ++ [' ', '='] ++
        '>' :: ' ' :: (", ".intercalate (values.map toString)).toList := by
  rw [Piece.render, String.toList_append, String.toList_append, List.append_assoc,
    List.append_assoc]
  rfl

variable {t : Term} {p : Piece}

/-- A piece is read as what it tells of its term. -/
theorem exists_told_of_rolled {token : List Char} (hwritten : t.Written token) (h : t.Rolled p)
    (mode : Advantage) :
    ∃ w, Told.read? (p.render mode).toList = some w ∧ t.ToldAs w ∧ w.values = p.values := by
  have hblank : ∀ c ∈ t.render.toList, Text.isBlank c = false :=
    fun c hc => isBlank_of_isTermChar (isTermChar_render t c hc)
  have hplain : ∀ {x : Char}, isTermChar x = false → x ∉ t.render.toList :=
    fun hx => notMem_of_isTermChar hx (isTermChar_render t)
  cases h with
  | @dice sign count sides values each =>
      have hne : values ≠ [] := by
        have hcount := (written_dice_iff.mp hwritten).2.1.1
        rintro rfl
        rw [← each] at hcount
        cases hcount
      have harrow : '>' ∉ (Term.dice sign count sides).render.toList ++ [' ', '='] := by
        simpa using hplain (by decide)
      refine ⟨⟨(Term.dice sign count sides).render, values⟩, ?_, .dice each, rfl⟩
      rw [Told.read?, toList_render_dice, listed_of_arrow harrow, decimals?_blank_cons,
        decimals?_intercalate hne, List.append_assoc,
        firstWord_append (Term.render_ne_nil _) hblank _ (by simp [Text.isBlank])]
      simp
  | modifier value =>
      have hread : decimals? (signed value).toList = some [value] :=
        decimals?_of_decimal? (hplain (by decide)) (decimal?_signed value)
      have hfirst : firstWord (signed value).toList = (signed value).toList := by
        have happend :=
          firstWord_append (Term.render_ne_nil (.modifier value)) hblank [] (by simp)
        rwa [List.append_nil] at happend
      have harrow : '>' ∉ (signed value).toList := hplain (by decide)
      refine ⟨⟨signed value, [value]⟩, ?_, .modifier value, rfl⟩
      rw [Told.read?, Piece.render, Term.render, listed_of_no_arrow harrow, hread, hfirst]
      simp

theorem notMem_render (h : t.Rolled p) (mode : Advantage) : ';' ∉ (p.render mode).toList := by
  have hterm : ';' ∉ t.render.toList := notMem_of_isTermChar (by decide) (isTermChar_render t)
  cases h with
  | @dice sign count sides values each =>
      have hvalues : ';' ∉ (", ".intercalate (values.map toString)).toList := by
        rw [String.toList_intercalate, List.map_map]
        refine notMem_intercalate (by decide) fun cs hcs => ?_
        obtain ⟨n, -, rfl⟩ := List.mem_map.mp hcs
        exact notMem_of_isTermChar (by decide) (isTermChar_toString n)
      rw [toList_render_dice]
      simp only [List.mem_append, List.mem_cons, not_or]
      exact ⟨⟨hterm, by decide⟩, by decide, by decide, hvalues⟩
  | modifier value => exact hterm

theorem exists_told_of_forall₂ {terms : List Term} {pieces : List Piece}
    (hwritten : ∀ t ∈ terms, ∃ token, t.Written token) (h : List.Forall₂ Term.Rolled terms pieces)
    (mode : Advantage) :
    ∃ told, (pieces.map fun p => (p.render mode).toList).mapM Told.read? = some told ∧
      List.Forall₂ Term.ToldAs terms told ∧
      told.flatMap Told.values = pieces.flatMap Piece.values := by
  induction h with
  | nil => exact ⟨[], rfl, .nil, rfl⟩
  | cons hrolled _ ih =>
      rw [List.forall_mem_cons] at hwritten
      obtain ⟨token, htoken⟩ := hwritten.1
      obtain ⟨w, hw, htold, hvalues⟩ := exists_told_of_rolled htoken hrolled mode
      obtain ⟨told, hread, hall, hrest⟩ := ih hwritten.2
      refine ⟨w :: told, ?_, .cons htold hall, ?_⟩
      · rw [List.map_cons, List.mapM_cons, hw, hread]
        rfl
      · rw [List.flatMap_cons, List.flatMap_cons, hvalues, hrest]

end Pieces

section Narratives

def Roll.heading (r : Roll) : String :=
  "Roll " ++ r.formula.raw ++ (if r.policy.exploding then " exploding" else "") ++
    String.join (r.pieces.map (Piece.keptNote r.policy.advantage)) ++ " -> " ++
      toString r.total ++ " "

theorem toList_narrative (r : Roll) :
    r.narrative.toList = r.heading.toList ++
      '[' :: (("; ".intercalate (r.pieces.map (Piece.render r.policy.advantage))).toList ++
        [']']) := by
  simp [Roll.narrative, Roll.heading]

theorem notMem_text (mode : Advantage) : '[' ∉ mode.text.toList := by
  cases mode <;> decide

theorem notMem_keptNote (mode : Advantage) (p : Piece) : '[' ∉ (p.keptNote mode).toList := by
  cases p with
  | dice sign count sides values => simp [Piece.keptNote]
  | pair sign first second kept =>
      have hkept : '[' ∉ (toString kept).toList := by
        rw [Nat.toString_eq_repr, Nat.toList_repr]
        exact notMem_of_isTermChar (by decide) (isTermChar_of_mem_numeral (numeral_toDigits kept))
      simp only [Piece.keptNote, String.toList_append, List.mem_append, not_or]
      exact ⟨⟨⟨by decide, notMem_text mode⟩, by decide⟩, hkept⟩
  | modifier value => simp [Piece.keptNote]

theorem notMem_heading {r : Roll} (hraw : '[' ∉ r.formula.raw.toList) :
    '[' ∉ r.heading.toList := by
  have hexploding : '[' ∉ (if r.policy.exploding then " exploding" else "").toList := by
    split <;> decide
  have hnotes :
      '[' ∉ (String.join (r.pieces.map (Piece.keptNote r.policy.advantage))).toList := by
    rw [String.toList_join, List.flatMap_map, List.mem_flatMap]
    rintro ⟨p, -, hp⟩
    exact notMem_keptNote r.policy.advantage p hp
  have htotal : '[' ∉ (toString r.total).toList :=
    notMem_of_isTermChar (by decide) (isTermChar_toString r.total)
  simp only [Roll.heading, String.toList_append, List.mem_append, not_or]
  exact ⟨⟨⟨⟨⟨⟨by decide, hraw⟩, hexploding⟩, hnotes⟩, by decide⟩, htotal⟩, by decide⟩

theorem bracketed_narrative {r : Roll} (hraw : '[' ∉ r.formula.raw.toList) :
    bracketed r.narrative.toList =
      ("; ".intercalate (r.pieces.map (Piece.render r.policy.advantage))).toList := by
  rw [toList_narrative]
  exact bracketed_eq (notMem_heading hraw) (by simp)

/-- Term by term, the account of a roll tells its values. -/
theorem exists_breakdown {r : Roll} {terms : List Term} (hraw : '[' ∉ r.formula.raw.toList)
    (hne : terms ≠ []) (hwritten : ∀ t ∈ terms, ∃ token, t.Written token)
    (hpieces : List.Forall₂ Term.Rolled terms r.pieces) :
    ∃ told, breakdown? r.narrative = some told ∧ List.Forall₂ Term.ToldAs terms told ∧
      told.flatMap Told.values = r.values := by
  obtain ⟨told, hread, htold, hvalues⟩ :=
    exists_told_of_forall₂ hwritten hpieces r.policy.advantage
  refine ⟨told, ?_, htold, hvalues⟩
  let row := r.pieces.map fun p => (p.render r.policy.advantage).toList
  have hrow : row ≠ [] := by
    intro hnil
    rw [List.map_eq_nil_iff.mp hnil, List.forall₂_nil_right_iff] at hpieces
    exact hne hpieces
  have hfree : ∀ cs ∈ row, ';' ∉ cs := by
    intro cs hcs
    obtain ⟨p, hp, rfl⟩ := List.mem_map.mp hcs
    obtain ⟨t, -, hrolled⟩ := exists_term_of_mem hpieces hp
    exact notMem_render hrolled r.policy.advantage
  have hcut := Text.splitOn_intercalate_blank (by decide : ';' ≠ ' ') read?_blank_cons hrow hfree
  rw [breakdown?, bracketed_narrative hraw, String.toList_intercalate, List.map_map]
  exact (mapM_congr_of_map hcut).trans hread

theorem faces?_pair {r : Roll} (hraw : '[' ∉ r.formula.raw.toList) {sign : Sign}
    {first second kept : Nat} (hpieces : r.pieces = [.pair sign first second kept]) :
    faces? r.narrative = some [(first : Int), (second : Int)] := by
  let front :=
    (if sign = .minus then "-" else "") ++ "1d20 (" ++ r.policy.advantage.text ++ ") => "
  let back := " -> " ++ toString (sign.toInt * kept)
  have hfront : '[' ∉ front.toList := by
    have hsign : '[' ∉ (if sign = .minus then "-" else "").toList := by
      split <;> decide
    simp only [front, String.toList_append, List.mem_append, not_or]
    exact ⟨⟨⟨hsign, by decide⟩, notMem_text _⟩, by decide⟩
  have hback : ']' ∉ back.toList := by
    simp only [back, String.toList_append, List.mem_append, not_or]
    exact ⟨by decide, notMem_of_isTermChar (by decide) (isTermChar_toString _)⟩
  have hinner : bracketed r.narrative.toList =
      front.toList ++ '[' ::
        ((", ".intercalate ([(first : Int), (second : Int)].map toString)).toList ++
          ']' :: back.toList) := by
    have hfirst : toString (first : Int) = toString first := rfl
    have hsecond : toString (second : Int) = toString second := rfl
    rw [bracketed_narrative hraw, hpieces]
    simp [Piece.render, front, back, hfirst, hsecond]
  rw [faces?, hinner, bracketed_eq hfront hback, decimals?_intercalate (List.cons_ne_nil _ _)]

end Narratives

namespace Formula

variable {text : String} {f : Formula} {policy : Policy} {s : Source} {r : Roll}

theorem notMem_raw (h : parse text = .ok f) {x : Char} (hterm : isTermChar x = false)
    (hblank : Text.isBlank x = false) : x ∉ f.raw.toList := by
  obtain ⟨terms, -, hterms, rfl⟩ := exists_terms_of_parse h
  rw [Text.toList_trim]
  intro hmem
  have hcompact := Text.mem_withoutBlanks.mpr ⟨hmem, hblank⟩
  rw [Text.withoutBlanks_trimChars, ← flatten_tokens (Text.withoutBlanks _)] at hcompact
  obtain ⟨token, htoken, hx⟩ := List.mem_flatten.mp hcompact
  obtain ⟨t, -, hwritten⟩ := exists_term_of_mem (readTerms_eq_ok_iff.mp hterms) htoken
  exact notMem_of_isTermChar hterm hwritten.isTermChar_of_mem hx

theorem total_of_roll (h : parse text = .ok f) (hpair : pairSign? policy.advantage f = none)
    (hr : (f.roll policy s).1 = .ok r) : r.total = r.values.sum := by
  rw [roll_of_pairSign?_eq_none hpair] at hr
  rcases hplain : f.roll ⟨.none, policy.exploding⟩ s with ⟨fault | plain, s'⟩
  · simp [hplain, Except.map] at hr
  · rw [hplain] at hr
    obtain rfl := Except.ok.inj hr
    obtain ⟨htotal, hvalues, -⟩ := eq_of_roll_ok h hplain
    exact (Word.addAll?_zero_eq_some_iff.mp htotal).2.trans (congrArg List.sum hvalues.symm)

theorem eq_of_same_faces {sign : Sign} (hpair : pairSign? policy.advantage f = some sign)
    (hraw : '[' ∉ f.raw.toList) (hr : (f.roll policy s).1 = .ok r) {s' : Source} {r' : Roll}
    (hr' : (f.roll policy s').1 = .ok r') (hsame : r'.narrative = r.narrative) :
    r'.values = r.values ∧ r'.total = r.total := by
  obtain ⟨hf, -, first, second, hpieces, htotal⟩ := pair_of_roll hpair hr
  obtain ⟨hf', -, first', second', hpieces', htotal'⟩ := pair_of_roll hpair hr'
  have hread := faces?_pair (hf ▸ hraw) hpieces
  have hread' := faces?_pair (hf' ▸ hraw) hpieces'
  rw [hsame, hread] at hread'
  simp only [Option.some.injEq, List.cons.injEq, Int.natCast_inj] at hread'
  obtain ⟨rfl, rfl, -⟩ := hread'
  exact ⟨by rw [Roll.values, Roll.values, hpieces, hpieces'], htotal'.trans htotal.symm⟩

/-- Rolls of one formula under one policy with the same account have the same values and the same
total. Unless a lone d20 is rolled twice, the account has a piece for each term in order, a group
of dice is told with a decimal for each of its dice and a modifier as its signed value, and the
decimals read in order are the values of the roll. -/
theorem narrative_faithful (h : parse text = .ok f) (hr : (f.roll policy s).1 = .ok r) :
    (∀ s' r', (f.roll policy s').1 = .ok r' → r'.narrative = r.narrative →
      r'.values = r.values ∧ r'.total = r.total) ∧
    (¬(policy.advantage ≠ .none ∧ f.isSingleD20 = true) →
      ∃ told, breakdown? r.narrative = some told ∧
        List.Forall₂ Term.ToldAs f.terms told ∧ told.flatMap Told.values = r.values) := by
  obtain ⟨hne, hwritten⟩ := exists_written_of_parse h
  have hraw : '[' ∉ f.raw.toList := notMem_raw h (by decide) (by decide)
  cases hpair : pairSign? policy.advantage f with
  | none =>
      have htold : ∀ {s r}, (f.roll policy s).1 = .ok r →
          ∃ told, breakdown? r.narrative = some told ∧
            List.Forall₂ Term.ToldAs f.terms told ∧ told.flatMap Told.values = r.values := by
        intro s r hr
        obtain ⟨rfl, -, hpieces⟩ := rolled_of_roll hpair hr
        exact exists_breakdown hraw hne hwritten hpieces
      refine ⟨fun s' r' hr' hsame => ?_, fun _ => htold hr⟩
      obtain ⟨told, hread, -, hvalues⟩ := htold hr
      obtain ⟨told', hread', -, hvalues'⟩ := htold hr'
      rw [hsame, hread] at hread'
      obtain rfl := Option.some.inj hread'
      have hequal : r'.values = r.values := hvalues'.symm.trans hvalues
      exact ⟨hequal, by rw [total_of_roll h hpair hr', total_of_roll h hpair hr, hequal]⟩
  | some sign =>
      obtain ⟨hmode, hterms⟩ := pairSign?_eq_some_iff.mp hpair
      refine ⟨fun s' r' hr' hsame => eq_of_same_faces hpair hraw hr hr' hsame, fun hplain => ?_⟩
      exact absurd ⟨hmode, isSingleD20_iff.mpr ⟨sign, hterms⟩⟩ hplain

theorem narrative_faithful_dragon :
    let f : Formula := ⟨"2D2 + 3 - 1d4", [.dice .plus 2 2, .dice .minus 1 4, .modifier 3]⟩
    let policy : Policy := ⟨.advantage, true⟩
    parse " 2D2 + 3 - 1d4 " = .ok f ∧ ∃ r, (f.roll policy (Source.ofSeed "dragon")).1 = .ok r ∧
      (∀ s' r', (f.roll policy s').1 = .ok r' → r'.narrative = r.narrative →
        r'.values = [3, 3, -1, 3] ∧ r'.total = 8) ∧
      ∃ told, breakdown? r.narrative = some told ∧ List.Forall₂ Term.ToldAs f.terms told ∧
        told.flatMap Told.values = [3, 3, -1, 3] := by
  intro f policy
  have hparse : parse " 2D2 + 3 - 1d4 " = .ok f := by cbv
  have hpair : pairSign? policy.advantage f = none := rfl
  have hdice :
      Die.valuesAll true f.dice (Source.ofSeed "dragon") = [3, 3, -1] := by decide +kernel
  have hsum : Word.addAll? 0 (Die.valuesAll true f.dice (Source.ofSeed "dragon") ++ f.modifiers) =
      some 8 := by
    rw [hdice]
    decide
  obtain ⟨plain, hplain, hvalues, htotal⟩ :=
    roll_ok_of_tallies (tallies_of_parse hparse true _) hsum
  have hroll :
      (f.roll policy (Source.ofSeed "dragon")).1 = .ok { plain with policy := policy } := by
    rw [roll_of_pairSign?_eq_none hpair, hplain]
    rfl
  obtain ⟨hsame, htold⟩ := narrative_faithful hparse hroll
  have hrolls : Roll.values { plain with policy := policy } = [3, 3, -1, 3] := by
    change plain.values = _
    rw [hvalues, hdice]
    rfl
  rw [hrolls] at hsame htold
  refine ⟨hparse, _, hroll, fun s' r' hr' hnarrative => ?_, htold (by decide)⟩
  obtain ⟨hequal, hequalTotal⟩ := hsame s' r' hr' hnarrative
  exact ⟨hequal, hequalTotal.trans htotal⟩

example :
    breakdown? "Roll 2d6+3 -> 12 [+2d6 => 4, 5; +3]" =
      some [⟨"+2d6", [4, 5]⟩, ⟨"+3", [3]⟩] := by cbv

example :
    faces? "Roll -d20 advantage applied, kept 17 -> -17 [-1d20 (advantage) => [3, 17] -> -17]" =
    some [3, 17] := by cbv

end Formula

end Dice

end Gamemaster
