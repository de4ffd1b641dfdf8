import Dsp56300.Asm.Token
import Dsp56300.Lib.LineParsers

/-! The expression parser, and what it makes of printed expressions. -/

namespace Dsp56300.Asm

open Lib.LineParsers LineParser

set_option linter.constructorNameAsVariable false

/-- Errors of the parsers. Where they stand in the input is left out. -/
inductive Rich where
  | custom (msg : String)
  /-- The error of the library's `select!`, which names the token that was found. -/
  | expectedFound
  /-- A bound on the recursion is used up: not a result of the parsers below. -/
  | spent
  deriving DecidableEq

/-- Parsers of the token stream. Each of them takes a newline for the end of the input: it has no
branch for one. -/
abbrev Parse (α : Type) := LineParser Token.isNewline Rich α

def toAsciiLowercase (s : String) : String := String.ofList (s.toList.map Char.toLower)

/-- Parse a register name string. -/
def parseRegister (name : String) : Option Register :=
  match toAsciiLowercase name with
  | "x0" => some .x0 | "x1" => some .x1 | "y0" => some .y0 | "y1" => some .y1
  | "a0" => some .a0 | "a1" => some .a1 | "a2" => some .a2
  | "b0" => some .b0 | "b1" => some .b1 | "b2" => some .b2
  | "a" => some .a | "b" => some .b
  | "r0" => some (.r 0) | "r1" => some (.r 1) | "r2" => some (.r 2) | "r3" => some (.r 3)
  | "r4" => some (.r 4) | "r5" => some (.r 5) | "r6" => some (.r 6) | "r7" => some (.r 7)
  | "n0" => some (.n 0) | "n1" => some (.n 1) | "n2" => some (.n 2) | "n3" => some (.n 3)
  | "n4" => some (.n 4) | "n5" => some (.n 5) | "n6" => some (.n 6) | "n7" => some (.n 7)
  | "m0" => some (.m 0) | "m1" => some (.m 1) | "m2" => some (.m 2) | "m3" => some (.m 3)
  | "m4" => some (.m 4) | "m5" => some (.m 5) | "m6" => some (.m 6) | "m7" => some (.m 7)
  | "ep" => some .ep | "vba" => some .vba | "sc" => some .sc | "sz" => some .sz
  | "sr" => some .sr | "omr" => some .omr | "sp" => some .sp | "ssh" => some .ssh
  | "ssl" => some .ssl | "la" => some .la | "lc" => some .lc | "mr" => some .mr
  | "ccr" => some .ccr | "a10" => some .a10 | "b10" => some .b10 | "x" => some .regX
  | "y" => some .regY | "ab" => some .ab | "ba" => some .ba
  | _ => none

/-- Precedence levels for binary operators (higher binds tighter). -/
def binopPrec : BinOp → Nat
  | .bitOr => 1
  | .bitAnd => 2
  | .shl | .shr => 3
  | .add | .sub => 4
  | .mul | .div => 5

/-- The binary operator at the current position; it is not taken. -/
def tryBinop : Parse (Option BinOp) := lookahead do
  match ← next with
  | some .pipe => return some .bitOr
  | some .ampersand => return some .bitAnd
  | some .lt =>
    match ← next with
    | some .lt => return some .shl
    | _ => return none
  | some .gt =>
    match ← next with
    | some .gt => return some .shr
    | _ => return none
  | some .plus => return some .add
  | some .minus => return some .sub
  | some .star => return some .mul
  | some .slash => return some .div
  | _ => return none

/-- Take a binary operator that `tryBinop` has found. -/
def eatBinop (op : BinOp) : Parse Unit := do
  discard next
  match op with
  | .shl | .shr => discard next
  | _ => return ()

def expect (tok : Token) : Parse Unit := do
  if ← eat tok then return ()
  fail (.custom s!"expected '{tok.display}'")

/-- The sign before an operand. -/
def unarySign : Token → Option UnaryOp
  | .minus => some .neg
  | .tilde => some .bitNot
  | _ => none

/-- A minus before an operand: a literal takes it in. -/
def negated : Expr → Expr
  | .literal v => .literal (-v)
  | .frac v => .frac (-v)
  | operand => .unaryOp .neg operand

/-! The bound is on the depth of the recursion. -/

mutual

/-- Parse an expression atom. A register is no symbol: it belongs to operand parsing. -/
def parseExprAtom : Nat → Parse Expr
  | 0 => fail .spent
  | fuel + 1 => do
    match ← next with
    | some (.hex v) => return .literal (v.setWidth 64)
    | some (.dec v) => return .literal (v.setWidth 64)
    | some (.frac v) => return .frac v
    | some .star => return .currentPc
    | some (.ident s) =>
      if (parseRegister s).isSome then fail (.custom "expected expression")
      else return .symbol s
    | some .lParen =>
      let expr ← parseExprPrec fuel 0
      expect .rParen
      return expr
    | _ => fail (.custom "expected expression")

/-- Parse a unary expression (-, ~, or atom). -/
def parseExprUnary : Nat → Parse Expr
  | 0 => fail .spent
  | fuel + 1 => do
    match ← select unarySign with
    | some .neg => return negated (← parseExprUnary fuel)
    | some .bitNot => return .unaryOp .bitNot (← parseExprUnary fuel)
    | none => parseExprAtom fuel

/-- Parse an expression with precedence climbing. -/
def parseExprPrec : Nat → Nat → Parse Expr
  | 0, _ => fail .spent
  | fuel + 1, minPrec => do climbExpr fuel minPrec (← parseExprUnary fuel)

/-- The loop of `parseExprPrec`. -/
def climbExpr : Nat → Nat → Expr → Parse Expr
  | 0, _, _ => fail .spent
  | fuel + 1, minPrec, lhs => do
    match ← tryBinop with
    | none => return lhs
    | some op =>
      let prec := binopPrec op
      if prec < minPrec then return lhs
      eatBinop op
      let rhs ← parseExprPrec fuel (prec + 1)
      climbExpr fuel minPrec (.binOp op lhs rhs)

end

/-! What the operator parsers do. -/

/-- The spelling of an operator. -/
def binopTokens : BinOp → List Token
  | .bitOr => [.pipe]
  | .bitAnd => [.ampersand]
  | .shl => [.lt, .lt]
  | .shr => [.gt, .gt]
  | .add => [.plus]
  | .sub => [.minus]
  | .mul => [.star]
  | .div => [.slash]

/-- The operator that tokens start with. -/
def binopAt : List Token → Option BinOp
  | .pipe :: _ => some .bitOr
  | .ampersand :: _ => some .bitAnd
  | .lt :: .lt :: _ => some .shl
  | .gt :: .gt :: _ => some .shr
  | .plus :: _ => some .add
  | .minus :: _ => some .sub
  | .star :: _ => some .mul
  | .slash :: _ => some .div
  | _ => none

theorem tryBinop_run (ts : List Token) : tryBinop.run ts = .ok (binopAt ts, ts) := by
  cases ts with
  | nil => rfl
  | cons t ts =>
    cases t with
    | lt =>
      cases ts with
      | nil => rfl
      | cons u ts => cases u <;> rfl
    | gt =>
      cases ts with
      | nil => rfl
      | cons u ts => cases u <;> rfl
    | _ => rfl

theorem binopAt_tokens (op : BinOp) (ts : List Token) : binopAt (binopTokens op ++ ts) = some op := by
  cases op <;> rfl

theorem tokens_of_binopAt {op : BinOp} {ts : List Token} (h : binopAt ts = some op) :
    ∃ rest, ts = binopTokens op ++ rest := by
  unfold binopAt at h
  split at h <;> cases h <;> exact ⟨_, rfl⟩

theorem eatBinop_run (op : BinOp) (ts : List Token) :
    (eatBinop op).run (binopTokens op ++ ts) = .ok ((), ts) := by
  cases op <;> rfl

theorem binopTokens_pos (op : BinOp) : 0 < (binopTokens op).length := by
  cases op <;> decide

theorem expect_run {tok : Token} (h : tok.isNewline = false) (ts : List Token) :
    (expect tok).run (tok :: ts) = .ok ((), ts) := bind_ok (eat_cons h ts)

theorem expect_done (tok : Token) (ts : List Token) : (expect tok).run ts ≠ .error .spent := by
  obtain ⟨⟨eaten, rest⟩, h⟩ := @eat_ok Token Rich Token.isNewline _ tok ts
  have hrun : (expect tok).run ts = _ := bind_ok h
  rw [hrun]
  cases eaten <;> nofun

/-! The number of tokens bounds the recursion. -/

theorem expr_sufficient (n : Nat) :
    (∀ ts : List Token, 3 * ts.length + 1 ≤ n → Sufficient .spent parseExprAtom n ts) ∧
    (∀ ts : List Token, 3 * ts.length + 2 ≤ n → Sufficient .spent parseExprUnary n ts) ∧
    (∀ (minPrec : Nat) (ts : List Token), 3 * ts.length + 3 ≤ n →
      Sufficient .spent (parseExprPrec · minPrec) n ts) ∧
    (∀ (minPrec : Nat) (lhs : Expr) (ts : List Token), 3 * ts.length + 1 ≤ n →
      Sufficient .spent (climbExpr · minPrec lhs) n ts) := by
  induction n with
  | zero => exact ⟨nofun, nofun, nofun, nofun⟩
  | succ n ih =>
    obtain ⟨hatom, hunary, hprec, hclimb⟩ := ih
    refine ⟨fun ts hn => ?_, fun ts hn => ?_, fun minPrec ts hn => ?_, fun minPrec lhs ts hn => ?_⟩
    · obtain ⟨r, hr⟩ := @next_ok Token Rich Token.isNewline ts
      refine .succ (fun _ => rfl) (.bind (.of_const (hr ▸ nofun)) fun t rest h => ?_)
      rcases t with _ | t
      · exact .of_const nofun
      cases t with
      | lParen =>
        obtain ⟨rfl, -⟩ := next_some h
        rw [List.length_cons] at hn
        refine .bind (hprec 0 rest (by omega)) fun expr rest' _ => ?_
        exact .bind (.of_const (expect_done _ _)) fun _ _ _ => .of_const nofun
      | ident s =>
        dsimp only
        split
        · exact .of_const nofun
        · exact .of_const nofun
      | _ => exact .of_const nofun
    · obtain h | ⟨t, rest, op, rfl, hop, h⟩ := @select_cases Token Rich _ Token.isNewline unarySign ts
      · refine .succ (fun _ => rfl) (.bind (.of_const (h ▸ nofun)) fun op rest h' => ?_)
        cases h.symm.trans h'
        exact hatom ts (by omega)
      · refine .succ (fun _ => rfl) (.bind (.of_const (h ▸ nofun)) fun op' rest' h' => ?_)
        cases h.symm.trans h'
        rw [List.length_cons] at hn
        cases op with
        | neg => exact .bind (hunary rest (by omega)) fun _ _ _ => .of_const nofun
        | bitNot => exact .bind (hunary rest (by omega)) fun _ _ _ => .of_const nofun
    · refine .succ (fun _ => rfl) (.bind (hunary ts (by omega)) fun lhs rest h => ?_)
      have hlen := ((parseExprUnary n).suffix h).length_le
      exact hclimb minPrec lhs rest (by omega)
    · refine .succ (fun _ => rfl) (.bind (.of_const (tryBinop_run ts ▸ nofun)) fun op rest h => ?_)
      cases (tryBinop_run ts).symm.trans h
      cases hop : binopAt ts with
      | none => exact .of_const nofun
      | some op =>
        obtain ⟨rest, rfl⟩ := tokens_of_binopAt hop
        have hpos := binopTokens_pos op
        rw [List.length_append] at hn
        dsimp only
        split
        · exact .of_const nofun
        · refine .bind (.of_const (eatBinop_run op rest ▸ nofun)) fun _ rest' h' => ?_
          cases (eatBinop_run op rest).symm.trans h'
          refine .bind (hprec _ rest (by omega)) fun rhs rest' h' => ?_
          have hle := ((parseExprPrec n _).suffix h').length_le
          exact hclimb minPrec _ rest' (by omega)

theorem exprOp_sufficient {n : Nat} {ts : List Token} (h : ts.length < n) :
    Sufficient .spent (fun n => parseExprPrec (3 * n) 0) n ts := by
  have hs := (expr_sufficient (3 * n)).2.2.1 0 ts (by omega)
  exact ⟨fun hm => hs.same (Nat.mul_le_mul_left 3 hm), hs.done⟩

/-- Parse an expression. -/
def parseExprOp : Parse Expr := bounded .spent (fun n => parseExprPrec (3 * n) 0) exprOp_sufficient

/-! Printed expressions. -/

/-- The tokens of an expression where an operator of lower precedence than `min` stands in
parentheses. A literal is hexadecimal or decimal. -/
inductive Prints : Nat → Expr → List Token → Prop where
  | hex (min : Nat) (v : Word) : Prints min (.literal (v.setWidth 64)) [.hex v]
  | dec (min : Nat) (v : Word) : Prints min (.literal (v.setWidth 64)) [.dec v]
  | symbol (min : Nat) {name : String} (h : parseRegister name = none) :
      Prints min (.symbol name) [.ident name]
  | currentPc (min : Nat) : Prints min .currentPc [.star]
  | neg (min : Nat) {e : Expr} {ts : List Token} (hlit : ∀ v, e ≠ .literal v) (h : Prints 6 e ts) :
      Prints min (.unaryOp .neg e) (.minus :: ts)
  | bitNot (min : Nat) {e : Expr} {ts : List Token} (h : Prints 6 e ts) :
      Prints min (.unaryOp .bitNot e) (.tilde :: ts)
  | binOp {min : Nat} {op : BinOp} {l r : Expr} {ls rs : List Token} (hmin : min ≤ binopPrec op)
      (hl : Prints (binopPrec op) l ls) (hr : Prints (binopPrec op + 1) r rs) :
      Prints min (.binOp op l r) (ls ++ (binopTokens op ++ rs))
  | parens {min : Nat} {op : BinOp} {l r : Expr} {ts : List Token} (hmin : binopPrec op < min)
      (h : Prints 0 (.binOp op l r) ts) : Prints min (.binOp op l r) (.lParen :: (ts ++ [.rParen]))

/-- The expressions over literals that a token can hold, the current pc and symbols; a minus before
a literal is a literal. -/
def Expr.Writable : Expr → Prop
  | .literal v => v.toNat < 2 ^ 32
  | .frac _ => False
  | .symbol name => parseRegister name = none
  | .currentPc => True
  | .binOp _ l r => l.Writable ∧ r.Writable
  | .unaryOp .neg e => e.Writable ∧ ∀ v, e ≠ .literal v
  | .unaryOp .bitNot e => e.Writable

theorem exists_prints {e : Expr} (h : e.Writable) (min : Nat) : ∃ ts, Prints min e ts := by
  induction e generalizing min with
  | literal v =>
    have hv : v = (v.setWidth 32).setWidth 64 := by
      have hlt : v.toNat < 2 ^ 32 := h
      apply BitVec.eq_of_toNat_eq
      rw [BitVec.toNat_setWidth, BitVec.toNat_setWidth, Nat.mod_eq_of_lt hlt,
        Nat.mod_eq_of_lt v.isLt]
    rw [hv]
    exact ⟨_, .dec min _⟩
  | frac v => exact absurd h id
  | symbol name => exact ⟨_, .symbol min h⟩
  | currentPc => exact ⟨_, .currentPc min⟩
  | binOp op l r ihl ihr =>
    obtain ⟨ls, hls⟩ := ihl h.1 (binopPrec op)
    obtain ⟨rs, hrs⟩ := ihr h.2 (binopPrec op + 1)
    by_cases hmin : min ≤ binopPrec op
    · exact ⟨_, .binOp hmin hls hrs⟩
    · exact ⟨_, .parens (Nat.lt_of_not_le hmin) (.binOp (Nat.zero_le _) hls hrs)⟩
  | unaryOp op e ih =>
    cases op with
    | neg =>
      obtain ⟨ts, hts⟩ := ih h.1 6
      exact ⟨_, .neg min h.2 hts⟩
    | bitNot =>
      obtain ⟨ts, hts⟩ := ih h 6
      exact ⟨_, .bitNot min hts⟩

/-! What the parsers make of them, with any bound that is large enough. -/

/-- With every large bound a recursion has this result. -/
def Yields {α : Type} (p : Nat → Parse α) (ts : List Token) (a : α) (rest : List Token) : Prop :=
  ∃ n, ∀ m, n ≤ m → (p m).run ts = .ok (a, rest)

section Yields

variable {α β : Type} {ts rest mid : List Token}

theorem Yields.of_const {p : Parse α} {a : α} (h : p.run ts = .ok (a, rest)) :
    Yields (fun _ => p) ts a rest := ⟨0, fun _ _ => h⟩

/-- One level of the recursion: a parser, and what is next. -/
theorem Yields.succ {p : Nat → Parse β} {q : Nat → Parse α} {f : Nat → α → Parse β} {a : α} {b : β}
    (hp : ∀ n, p (n + 1) = q n >>= f n) (hq : Yields q ts a mid)
    (hf : Yields (fun n => f n a) mid b rest) : Yields p ts b rest := by
  obtain ⟨n, hn⟩ := hq
  obtain ⟨k, hk⟩ := hf
  refine ⟨max n k + 1, fun m hm => ?_⟩
  obtain ⟨i, rfl⟩ := Nat.exists_eq_add_of_lt (Nat.lt_of_succ_le hm)
  rw [hp, bind_ok (hn _ (by omega))]
  exact hk _ (by omega)

theorem Yields.bind {q : Nat → Parse α} {f : Nat → α → Parse β} {a : α} {b : β}
    (hq : Yields q ts a mid) (hf : Yields (fun n => f n a) mid b rest) :
    Yields (fun n => q n >>= f n) ts b rest := by
  obtain ⟨n, hn⟩ := hq
  obtain ⟨k, hk⟩ := hf
  refine ⟨max n k, fun m hm => ?_⟩
  dsimp only
  rw [bind_ok (hn m (by omega))]
  exact hk m (by omega)

variable {minPrec : Nat} {e lhs : Expr}

/-- Where no operator of the level follows, the climb is over. -/
theorem yields_climb_end (h : ∀ op, binopAt ts = some op → binopPrec op < minPrec) :
    Yields (climbExpr · minPrec lhs) ts lhs ts := by
  refine .succ (fun _ => rfl) (.of_const (tryBinop_run ts)) ?_
  cases hop : binopAt ts with
  | none => exact .of_const rfl
  | some op =>
    simp only [if_pos (h op hop)]
    exact .of_const rfl

/-- An operator of the level: its right operand, and on with the climb. -/
theorem yields_climb_step {op : BinOp} {rhs : Expr} (hop : minPrec ≤ binopPrec op)
    (hrhs : Yields (parseExprPrec · (binopPrec op + 1)) ts rhs mid)
    (h : Yields (climbExpr · minPrec (.binOp op lhs rhs)) mid e rest) :
    Yields (climbExpr · minPrec lhs) (binopTokens op ++ ts) e rest := by
  refine .succ (fun _ => rfl) (.of_const (tryBinop_run _)) ?_
  simp only [binopAt_tokens, if_neg (Nat.not_lt.mpr hop)]
  exact .bind (.of_const (eatBinop_run op ts)) (.bind hrhs h)

theorem yields_prec (hunary : Yields parseExprUnary ts lhs mid)
    (h : Yields (climbExpr · minPrec lhs) mid e rest) :
    Yields (parseExprPrec · minPrec) ts e rest :=
  .succ (fun _ => rfl) hunary h

theorem yields_atom {t : Token} (ht : t.isNewline = false) (hsign : unarySign t = none)
    (h : Yields parseExprAtom (t :: ts) e rest) : Yields parseExprUnary (t :: ts) e rest := by
  refine .succ (fun _ => rfl) (.of_const (select_cons ht ts)) ?_
  rw [hsign]
  exact h

end Yields

theorem no_binop {ts : List Token} (h : binopAt ts = none) {P : BinOp → Prop} :
    ∀ op, binopAt ts = some op → P op := fun _ hop => absurd (h.symm.trans hop) nofun

theorem negated_of_prints {min : Nat} {e : Expr} {ts : List Token} (h : Prints min e ts)
    (hlit : ∀ v, e ≠ .literal v) : negated e = .unaryOp .neg e := by
  cases h with
  | hex v => exact absurd rfl (hlit _)
  | dec v => exact absurd rfl (hlit _)
  | _ => rfl

/-- What a printed expression yields: where it binds as tightly as a unary one, by itself; anywhere
else, to a climb that an operator of its level may continue. -/
theorem yields_prints {k : Nat} {e : Expr} {ts : List Token} (h : Prints k e ts) :
    (6 ≤ k → ∀ rest, Yields parseExprUnary (ts ++ rest) e rest) ∧
    ∀ minPrec ≤ k, ∀ rest, (∀ op, binopAt rest = some op → binopPrec op ≤ k) → ∀ e' out,
      Yields (climbExpr · minPrec e) rest e' out →
      Yields (parseExprPrec · minPrec) (ts ++ rest) e' out := by
  -- A unary expression is the left operand of the climb.
  have tight {e : Expr} {ts : List Token} {k : Nat}
      (h : ∀ rest, Yields parseExprUnary (ts ++ rest) e rest) :
      (6 ≤ k → ∀ rest, Yields parseExprUnary (ts ++ rest) e rest) ∧
      ∀ minPrec ≤ k, ∀ rest, (∀ op, binopAt rest = some op → binopPrec op ≤ k) → ∀ e' out,
        Yields (climbExpr · minPrec e) rest e' out →
        Yields (parseExprPrec · minPrec) (ts ++ rest) e' out :=
    ⟨fun _ => h, fun _ _ rest _ _ _ hclimb => yields_prec (h rest) hclimb⟩
  induction h with
  | hex min v =>
    refine tight fun rest => yields_atom rfl rfl ?_
    exact .succ (fun _ => rfl) (.of_const (next_cons rfl rest)) (.of_const rfl)
  | dec min v =>
    refine tight fun rest => yields_atom rfl rfl ?_
    exact .succ (fun _ => rfl) (.of_const (next_cons rfl rest)) (.of_const rfl)
  | symbol min hname =>
    refine tight fun rest => yields_atom rfl rfl ?_
    refine .succ (fun _ => rfl) (.of_const (next_cons rfl rest)) (.of_const ?_)
    rw [hname]
    rfl
  | currentPc min =>
    refine tight fun rest => yields_atom rfl rfl ?_
    exact .succ (fun _ => rfl) (.of_const (next_cons rfl rest)) (.of_const rfl)
  | neg min hlit he ih =>
    refine tight fun rest => .succ (fun _ => rfl) (.of_const (select_cons rfl _)) ?_
    rw [← negated_of_prints he hlit]
    exact .bind (ih.1 (Nat.le_refl 6) rest) (.of_const rfl)
  | bitNot min he ih =>
    refine tight fun rest => .succ (fun _ => rfl) (.of_const (select_cons rfl _)) ?_
    exact .bind (ih.1 (Nat.le_refl 6) rest) (.of_const rfl)
  | @binOp min op l r ls rs hmin hl hr ihl ihr =>
    refine ⟨fun hk => ?_, fun minPrec hle rest hrest e' out hclimb => ?_⟩
    · have hprec : binopPrec op ≤ 5 := by cases op <;> decide
      omega
    · -- The left operand climbs up to the operator, the right one stops before the next.
      rw [List.append_assoc, List.append_assoc]
      refine ihl.2 minPrec (hle.trans hmin) _ (fun op' hop' => ?_) e' out ?_
      · rw [binopAt_tokens] at hop'
        cases hop'
        exact Nat.le_refl _
      · refine yields_climb_step (hle.trans hmin) ?_ hclimb
        refine ihr.2 _ (Nat.le_refl _) rest (fun op' hop' => ?_) r rest ?_
        · exact (hrest op' hop').trans (Nat.le_succ_of_le hmin)
        · exact yields_climb_end fun op' hop' =>
            Nat.lt_succ_of_le ((hrest op' hop').trans hmin)
  | @parens min op l r ts hmin he ih =>
    refine tight fun rest => yields_atom rfl rfl ?_
    change Yields parseExprAtom (.lParen :: ((ts ++ [.rParen]) ++ rest)) _ _
    rw [List.append_assoc]
    refine .succ (fun _ => rfl) (.of_const (next_cons rfl _)) ?_
    have hclose : binopAt ([.rParen] ++ rest) = none := rfl
    refine .bind (ih.2 0 (Nat.le_refl 0) _ (no_binop hclose) _ _ (yields_climb_end (no_binop hclose)))
      ?_
    exact .of_const (bind_ok (expect_run rfl rest))

/-- Expression parsing inverts printing. -/
theorem parseExprOp_prints {e : Expr} (h : e.Writable) :
    (∃ ts, Prints 0 e ts) ∧ ∀ ts rest, Prints 0 e ts → binopAt rest = none →
      parseExprOp.run (ts ++ rest) = .ok (e, rest) := by
  refine ⟨exists_prints h 0, fun ts rest hts hrest => ?_⟩
  obtain ⟨n, hn⟩ := (yields_prints hts).2 0 (Nat.le_refl 0) rest (no_binop hrest) e rest
    (yields_climb_end (no_binop hrest))
  have hrun : parseExprOp.run (ts ++ rest) =
      (parseExprPrec (3 * ((ts ++ rest).length + 1 + n)) 0).run (ts ++ rest) :=
    bounded_run (by omega)
  rw [hrun]
  exact hn _ (by omega)

/-- `* * (5 | foo)`: the current pc, multiplied. -/
theorem parseExprOp_prints_star :
    (∃ ts, Prints 0 (.binOp .mul .currentPc (.binOp .bitOr (.literal 5) (.symbol "foo"))) ts) ∧
    ∀ ts rest, Prints 0 (.binOp .mul .currentPc (.binOp .bitOr (.literal 5) (.symbol "foo"))) ts →
      binopAt rest = none → parseExprOp.run (ts ++ rest) =
        .ok (.binOp .mul .currentPc (.binOp .bitOr (.literal 5) (.symbol "foo")), rest) :=
  parseExprOp_prints ⟨trivial, (by decide : 5 < 2 ^ 32), (by decide : parseRegister "foo" = none)⟩

example : parseExprOp.run [.star, .star, .lParen, .dec 5, .pipe, .ident "foo", .rParen, .comma] =
    .ok (.binOp .mul .currentPc (.binOp .bitOr (.literal 5) (.symbol "foo")), [.comma]) := by
  decide +kernel

end Dsp56300.Asm
