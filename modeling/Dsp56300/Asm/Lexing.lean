import Dsp56300.Asm.ParseProgram
import Mathlib.Data.List.Flatten
import Mathlib.Data.List.TakeWhile

/-! What the lexer makes of a text: its items cover it, and those that fail are dropped. -/

namespace Dsp56300.Asm

set_option linter.constructorNameAsVariable false

/-! Matches of the patterns. -/

/-- What a pattern matches is a prefix with this property. -/
def Matches (longest : List Char → Option Nat) (P : List Char → Prop) : Prop :=
  ∀ text n, longest text = some n → n ≤ text.length ∧ P (text.take n)

theorem Matches.mono {longest : List Char → Option Nat} {P Q : List Char → Prop}
    (h : Matches longest P) (hPQ : ∀ t, P t → Q t) : Matches longest Q :=
  fun text n hn => ⟨(h text n hn).1, hPQ _ (h text n hn).2⟩

theorem matches_run (p : Char → Bool) :
    Matches (longestRun p) fun t => t ≠ [] ∧ ∀ c ∈ t, p c = true := by
  intro text n hn
  have hlen : n = (text.takeWhile p).length ∧ n ≠ 0 := by
    unfold longestRun at hn
    split at hn
    · exact absurd hn nofun
    · next hne =>
      cases hn
      exact ⟨rfl, hne⟩
  obtain ⟨rfl, hne⟩ := hlen
  have htake : text.take (text.takeWhile p).length = text.takeWhile p :=
    (List.prefix_iff_eq_take.mp (List.takeWhile_prefix p)).symm
  refine ⟨(List.takeWhile_prefix p).length_le, ?_, ?_⟩
  · rw [htake]
    exact List.ne_nil_of_length_pos (Nat.pos_of_ne_zero hne)
  · rw [htake]
    exact fun c hc => List.mem_takeWhile_imp hc

theorem matches_after {c : Char} {longest : List Char → Option Nat} {P : List Char → Prop}
    (h : Matches longest P) : Matches (longestAfter c longest) fun t => ∃ u, t = c :: u ∧ P u := by
  intro text n hn
  cases text with
  | nil => exact absurd hn nofun
  | cons d text =>
    obtain ⟨rfl, hmap⟩ := Option.ite_none_right_eq_some.mp hn
    obtain ⟨m, hm, rfl⟩ := Option.map_eq_some_iff.mp hmap
    obtain ⟨hle, hP⟩ := h text m hm
    exact ⟨Nat.succ_le_succ hle, text.take m, rfl, hP⟩

theorem matches_text (pattern : List Char) : Matches (longestText pattern) (· = pattern) := by
  intro text n hn
  obtain ⟨hpre, hn⟩ := Option.ite_none_right_eq_some.mp hn
  cases hn
  have h := List.isPrefixOf_iff_prefix.mp hpre
  exact ⟨h.length_le, (List.prefix_iff_eq_take.mp h).symm⟩

theorem matches_closed (q : Char) : Matches (longestClosed q) fun _ => True := by
  intro text n hn
  obtain ⟨hlt, hn⟩ := Option.ite_none_right_eq_some.mp hn
  cases hn
  exact ⟨hlt, trivial⟩

theorem matches_or {f g : List Char → Option Nat} {P : List Char → Prop} (hf : Matches f P)
    (hg : Matches g P) : Matches (fun text => (f text).or (g text)) P := by
  intro text n hn
  rcases Option.or_eq_some_iff.mp hn with h | ⟨_, h⟩
  · exact hf text n h
  · exact hg text n h

theorem matches_frac :
    Matches longestFrac fun t => t ≠ [] ∧ ∀ c ∈ t, c.isDigit = true ∨ c = '.' := by
  intro text n hn
  obtain ⟨m, hm, rfl⟩ := Option.map_eq_some_iff.mp hn
  obtain ⟨hle, u, hu, -, hdigits⟩ := matches_after (matches_run Char.isDigit) _ _ hm
  have hpre := List.takeWhile_prefix (l := text) Char.isDigit
  have hint : text.take (text.takeWhile Char.isDigit).length = text.takeWhile Char.isDigit :=
    (List.prefix_iff_eq_take.mp hpre).symm
  rw [List.length_drop] at hle
  refine ⟨by have := hpre.length_le; omega, ?_, ?_⟩
  · rw [List.take_add, hu]
    exact List.append_ne_nil_of_right_ne_nil _ (List.cons_ne_nil _ _)
  · rw [List.take_add, hint, hu]
    intro c hc
    rcases List.mem_append.mp hc with hc | hc
    · exact .inl (List.mem_takeWhile_imp hc)
    · rcases List.mem_cons.mp hc with rfl | hc
      · exact .inr rfl
      · exact .inl (hdigits c hc)

theorem matches_ident :
    Matches longestIdent fun t => t ≠ [] ∧ ∀ c ∈ t, isIdentRest c = true := by
  intro text n hn
  exact matches_run isIdentRest text n (Option.ite_none_right_eq_some.mp hn).2

/-! Line breaks in items. -/

/-- A newline is one line break. A string may hold line breaks, and no other item that a pattern
matches does. -/
def Item.Breaks (text : List Char) : Item → Prop
  | .token .newline | .token .newlineCrLf => text.count '\n' = 1
  | .token (.stringLit _) => True
  | _ => '\n' ∉ text

/-- Every match of the rule has a text, with the line breaks its item may have. -/
def Rule.Sound (r : Rule) : Prop :=
  Matches r.longest fun t => t ≠ [] ∧ (r.item t).Breaks t

/-- Items without a line break. -/
def Item.unbroken : Item → Bool
  | .token .newline | .token .newlineCrLf | .token (.stringLit _) => false
  | _ => true

theorem Item.breaks_of_unbroken {item : Item} (h : item.unbroken = true) {text : List Char} :
    item.Breaks text ↔ '\n' ∉ text := by
  cases item with
  | token t => cases t <;> first | exact Iff.rfl | exact absurd h nofun
  | _ => exact Iff.rfl

theorem sound_literal {pattern : List Char} {t : Token} (hne : pattern ≠ [])
    (h : (Item.token t).Breaks pattern) : (literalRule pattern t).Sound := by
  refine (matches_text pattern).mono fun t' ht => ?_
  subst ht
  exact ⟨hne, h⟩

theorem sound_char {c : Char} {t : Token} (hc : c ≠ '\n') (ht : (Item.token t).unbroken = true) :
    (literalRule [c] t).Sound :=
  sound_literal (List.cons_ne_nil _ _)
    ((Item.breaks_of_unbroken ht).mpr fun h => hc (List.mem_singleton.mp h).symm)

theorem sound_mem {lower upper : Char} {t : Token} (hl : lower ≠ '\n') (hu : upper ≠ '\n')
    (ht : (Item.token t).unbroken = true) : (memRule lower upper t).Sound := by
  have hpair {c : Char} (hc : c ≠ '\n') : Matches (longestText [c, ':']) fun t' =>
      t' ≠ [] ∧ (Item.token t).Breaks t' := by
    refine (matches_text _).mono fun t' ht' => ?_
    subst ht'
    refine ⟨List.cons_ne_nil _ _, (Item.breaks_of_unbroken ht).mpr fun h => ?_⟩
    rcases List.mem_pair.mp h with h | h
    · exact hc h.symm
    · exact absurd h (by decide)
  exact matches_or (hpair hl) (hpair hu)

theorem sound_string (q : Char) : (stringRule q).Sound := by
  refine (matches_after (matches_closed q)).mono fun t ht => ?_
  obtain ⟨_, rfl, -⟩ := ht
  exact ⟨List.cons_ne_nil _ _, trivial⟩

/-- A callback that is given no line break. -/
theorem sound_of_chars {longest : List Char → Option Nat} {item : List Char → Item}
    {p : Char → Prop} (h : Matches longest fun t => t ≠ [] ∧ ∀ c ∈ t, p c) (hp : ¬ p '\n')
    (hitem : ∀ t, (item t).unbroken = true) : (⟨longest, item⟩ : Rule).Sound :=
  h.mono fun t ht => ⟨ht.1, (Item.breaks_of_unbroken (hitem t)).mpr fun hmem => hp (ht.2 _ hmem)⟩

theorem unbroken_ofToken {α : Type} {o : Option α} {f : α → Token}
    (hf : ∀ a, (Item.token (f a)).unbroken = true) : (Item.ofToken (o.map f)).unbroken = true := by
  cases o with
  | none => rfl
  | some a => exact hf a

section Rules

variable (fracValue : List Char → I64) (unmatched : List Char → Nat)

theorem rules_sound : ∀ r ∈ rules fracValue, r.Sound := by
  have hhex : Matches (longestAfter '$' (longestRun isHexDigit)) fun t =>
      t ≠ [] ∧ ∀ c ∈ t, c = '$' ∨ isHexDigit c = true := by
    refine (matches_after (matches_run isHexDigit)).mono fun t ht => ?_
    obtain ⟨u, rfl, -, hu⟩ := ht
    exact ⟨List.cons_ne_nil _ _, List.forall_mem_cons.mpr ⟨.inl rfl, fun c hc => .inr (hu c hc)⟩⟩
  have hcomment : Matches (longestAfter ';' fun text =>
      some (text.takeWhile (· ≠ '\n')).length) fun t => t ≠ [] ∧ ∀ c ∈ t, c ≠ '\n' := by
    refine (matches_after (P := fun u => ∀ c ∈ u, c ≠ '\n') fun text n hn => ?_).mono fun t ht => ?_
    · cases hn
      have hpre := List.takeWhile_prefix (l := text) (· ≠ '\n')
      refine ⟨hpre.length_le, fun c hc => ?_⟩
      rw [← List.prefix_iff_eq_take.mp hpre] at hc
      simpa using List.mem_takeWhile_imp hc
    · obtain ⟨u, rfl, hu⟩ := ht
      exact ⟨List.cons_ne_nil _ _, List.forall_mem_cons.mpr ⟨by decide, hu⟩⟩
  simp only [rules, List.forall_mem_cons]
  exact ⟨sound_of_chars (matches_run _) (by decide) fun _ => rfl,
    sound_mem (by decide) (by decide) rfl, sound_mem (by decide) (by decide) rfl,
    sound_mem (by decide) (by decide) rfl, sound_mem (by decide) (by decide) rfl,
    sound_of_chars hhex (by decide) fun _ => unbroken_ofToken fun _ => rfl,
    sound_of_chars matches_frac (by decide) fun _ => rfl,
    sound_of_chars (matches_run _) (by decide) fun _ => unbroken_ofToken fun _ => rfl,
    sound_char (by decide) rfl, sound_char (by decide) rfl, sound_char (by decide) rfl,
    sound_char (by decide) rfl, sound_char (by decide) rfl, sound_char (by decide) rfl,
    sound_char (by decide) rfl, sound_char (by decide) rfl, sound_char (by decide) rfl,
    sound_char (by decide) rfl, sound_char (by decide) rfl, sound_char (by decide) rfl,
    sound_char (by decide) rfl, sound_char (by decide) rfl, sound_char (by decide) rfl,
    sound_string _, sound_string _, sound_literal (by decide) rfl, sound_literal (by decide) rfl,
    sound_of_chars hcomment (fun h => h rfl) fun _ => rfl,
    sound_of_chars matches_ident (by decide) fun _ => rfl, nofun⟩

theorem longestMatch_some {text : List Char} {rs : List Rule} {n : Nat} {r : Rule}
    (h : longestMatch text rs = some (n, r)) : r ∈ rs ∧ r.longest text = some n := by
  induction rs generalizing n r with
  | nil => exact absurd h nofun
  | cons first rs ih =>
    have hfirst : first ∈ first :: rs := List.mem_cons_self
    unfold longestMatch at h
    split at h
    · exact ⟨List.mem_cons_of_mem _ (ih h).1, (ih h).2⟩
    · next hn _ =>
      cases h
      exact ⟨hfirst, hn⟩
    · next hn hm =>
      split at h
      · cases h
        exact ⟨hfirst, hn⟩
      · cases h
        exact ⟨List.mem_cons_of_mem _ (ih hm).1, (ih hm).2⟩

theorem longestMatch_none {text : List Char} {rs : List Rule} (h : longestMatch text rs = none) :
    ∀ r ∈ rs, r.longest text = none := by
  induction rs with
  | nil => exact nofun
  | cons first rs ih =>
    unfold longestMatch at h
    split at h
    · next hn => exact List.forall_mem_cons.mpr ⟨hn, ih h⟩
    · exact absurd h nofun
    · split at h <;> exact absurd h nofun

variable {fracValue unmatched}

/-- An item has a text, and the line breaks of its kind where a pattern matches. -/
theorem lexItem_sound {text : List Char} (h : text ≠ []) :
    (lexItem fracValue unmatched text).2 ≤ text.length ∧
      text.take (lexItem fracValue unmatched text).2 ≠ [] ∧
      ((lexItem fracValue unmatched text).1.Breaks
          (text.take (lexItem fracValue unmatched text).2) ∨
        longestMatch text (rules fracValue) = none ∧
          (lexItem fracValue unmatched text).1 = .unmatched ∧
          (lexItem fracValue unmatched text).2 = max 1 (min (unmatched text) text.length)) := by
  unfold lexItem
  split
  · next n r hmatch =>
    obtain ⟨hmem, hn⟩ := longestMatch_some hmatch
    obtain ⟨hle, hne, hbreaks⟩ := rules_sound fracValue r hmem text n hn
    exact ⟨hle, hne, .inl hbreaks⟩
  · next hmatch =>
    have hpos : 0 < text.length := List.length_pos_of_ne_nil h
    refine ⟨by omega, fun hnil => ?_, .inr ⟨hmatch, rfl, rfl⟩⟩
    have hlen := congrArg List.length hnil
    rw [List.length_take, List.length_nil] at hlen
    omega

theorem lexFrom_cons {fuel : Nat} {text : List Char} (h : text ≠ []) :
    lexFrom fracValue unmatched (fuel + 1) text =
      ⟨(lexItem fracValue unmatched text).1, text.take (lexItem fracValue unmatched text).2⟩ ::
        lexFrom fracValue unmatched fuel (text.drop (lexItem fracValue unmatched text).2) := by
  cases text with
  | nil => exact absurd rfl h
  | cons c text => rfl

/-- What is left after an item is shorter. -/
theorem drop_item {fuel : Nat} {text : List Char} (h : text ≠ []) (hle : text.length ≤ fuel + 1) :
    (text.drop (lexItem fracValue unmatched text).2).length ≤ fuel := by
  have hlen := List.length_pos_of_ne_nil (@lexItem_sound fracValue unmatched text h).2.1
  rw [List.length_take] at hlen
  rw [List.length_drop]
  omega

/-- The items cover the text. -/
theorem lexFrom_texts {fuel : Nat} {text : List Char} (h : text.length ≤ fuel) :
    (lexFrom fracValue unmatched fuel text).flatMap Lexeme.text = text := by
  induction fuel generalizing text with
  | zero =>
    rw [List.length_eq_zero_iff.mp (Nat.le_zero.mp h)]
    rfl
  | succ fuel ih =>
    by_cases hnil : text = []
    · rw [hnil]
      rfl
    · rw [lexFrom_cons hnil, List.flatMap_cons, ih (drop_item hnil h), List.take_append_drop]

theorem lexFrom_text_ne {fuel : Nat} {text : List Char} :
    ∀ l ∈ lexFrom fracValue unmatched fuel text, l.text ≠ [] := by
  induction fuel generalizing text with
  | zero => exact nofun
  | succ fuel ih =>
    by_cases hnil : text = []
    · rw [hnil]
      exact nofun
    · rw [lexFrom_cons hnil]
      exact List.forall_mem_cons.mpr ⟨(lexItem_sound hnil).2.1, ih⟩

end Rules

/-! Nothing of the source is lost where no item fails. -/

section Loss

variable (fracValue : List Char → I64) (unmatched : List Char → Nat)

/-- The lexeme is a token that the parser is given, a blank or a comment. -/
def Lexeme.accounted (l : Lexeme) : Bool :=
  l.kept.isSome || l.item = .blank || l.item = .token .comment

/-- An item that fails makes parsing fail, and the rest of the items cover the source. -/
def Lossless (source : List Char) : Prop :=
  ((∃ l ∈ lex fracValue unmatched source, l.item = .unmatched) →
      ∃ e, parse fracValue unmatched source = .error e) ∧
    ((lex fracValue unmatched source).filter Lexeme.accounted).flatMap Lexeme.text = source

variable {fracValue unmatched}

theorem accounted_iff (l : Lexeme) : l.accounted = true ↔ l.item ≠ .unmatched := by
  obtain ⟨item, text⟩ := l
  cases item with
  | token t => cases t <;> exact ⟨fun _ => nofun, fun _ => rfl⟩
  | blank => exact ⟨fun _ => nofun, fun _ => rfl⟩
  | unmatched => exact ⟨nofun, fun h => absurd rfl h⟩

/-- A lexeme that is left out is missing in the text. -/
theorem covers_iff {ls : List Lexeme} (p : Lexeme → Bool) (h : ∀ l ∈ ls, l.text ≠ []) :
    (ls.filter p).flatMap Lexeme.text = ls.flatMap Lexeme.text ↔ ∀ l ∈ ls, p l = true := by
  refine ⟨fun heq => ?_, fun hall => by rw [List.filter_eq_self.mpr hall]⟩
  induction ls with
  | nil => exact nofun
  | cons l ls ih =>
    obtain ⟨hl, hls⟩ := List.forall_mem_cons.mp h
    cases hp : p l with
    | true =>
      rw [List.filter_cons_of_pos hp, List.flatMap_cons, List.flatMap_cons] at heq
      exact List.forall_mem_cons.mpr ⟨hp, ih hls (List.append_cancel_left heq)⟩
    | false =>
      rw [List.filter_cons_of_neg (by simp [hp]), List.flatMap_cons] at heq
      have hlen := congrArg List.length heq
      have hle := ((List.filter_sublist (p := p) (l := ls)).flatMap Lexeme.text).length_le
      have hpos := List.length_pos_of_ne_nil hl
      rw [List.length_append] at hlen
      omega

/-- Nothing disappears in lexing exactly where no item fails. -/
theorem lossless_iff (source : List Char) : Lossless fracValue unmatched source ↔
    ∀ l ∈ lex fracValue unmatched source, l.item ≠ .unmatched := by
  have hcover : ((lex fracValue unmatched source).filter Lexeme.accounted).flatMap Lexeme.text =
      source ↔ ∀ l ∈ lex fracValue unmatched source, l.item ≠ .unmatched := by
    have htexts : (lex fracValue unmatched source).flatMap Lexeme.text = source :=
      lexFrom_texts (Nat.le_refl _)
    have h := covers_iff Lexeme.accounted (@lexFrom_text_ne fracValue unmatched source.length source)
    rw [← lex, htexts] at h
    exact h.trans (forall₂_congr fun l _ => accounted_iff l)
  constructor
  · intro ⟨_, h⟩
    exact hcover.mp h
  · intro h
    refine ⟨fun ⟨l, hl, hitem⟩ => absurd hitem (h l hl), hcover.mpr h⟩

/-- The parser sees nothing of an item that fails. -/
theorem tokens_accounted (source : List Char) : tokens fracValue unmatched source =
    ((lex fracValue unmatched source).filter Lexeme.accounted).filterMap Lexeme.kept := by
  have hkept (l : Lexeme) (hl : l.accounted = false) : l.kept = none := by
    have hitem : l.item = .unmatched := by
      by_contra hne
      exact Bool.false_ne_true (hl.symm.trans ((accounted_iff l).mpr hne))
    rw [Lexeme.kept, hitem]
  rw [tokens, List.filterMap_filter]
  refine List.filterMap_congr fun l _ => ?_
  cases hl : l.accounted with
  | true => rfl
  | false => exact hkept l hl

/-- A source with items that fail parses as one that has the other items only. -/
theorem parse_of_accounted {source : List Char} (source' : List Char)
    (h : (lex fracValue unmatched source).filter Lexeme.accounted =
      lex fracValue unmatched source') :
    (parse fracValue unmatched source).map SourceProgram.statements =
      (parse fracValue unmatched source').map SourceProgram.statements := by
  have htokens : tokens fracValue unmatched source = tokens fracValue unmatched source' := by
    rw [tokens_accounted, h, tokens]
  rw [parse, parse, htokens]
  cases programParser (tokens fracValue unmatched source') with
  | ok statements => rfl
  | error e => rfl

/-- `nop ?` is parsed as `nop`. -/
theorem nop_question_lost :
    (parse (fun _ => 0) (fun _ => 1) "nop ?".toList).map SourceProgram.statements =
        .ok [.instruction none .nop] ∧
      ¬ Lossless (fun _ => 0) (fun _ => 1) "nop ?".toList := by
  have hparse : (parse (fun _ => 0) (fun _ => 1) "nop ?".toList).map SourceProgram.statements =
      .ok [.instruction none .nop] := by
    have htokens : tokens (fun _ => 0) (fun _ => 1) "nop ".toList = [.ident "nop"] := by
      decide +kernel
    rw [parse_of_accounted "nop ".toList (by decide +kernel), parse, htokens]
    rfl
  refine ⟨hparse, fun ⟨herror, _⟩ => ?_⟩
  obtain ⟨e, he⟩ := herror ⟨⟨.unmatched, ['?']⟩, by decide +kernel, rfl⟩
  rw [he] at hparse
  cases hparse

end Loss

end Dsp56300.Asm
