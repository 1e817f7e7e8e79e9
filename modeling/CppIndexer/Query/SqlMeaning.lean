/-
# Reading emitted expressions

How token lists are put together. `Operand` says that a list parses to an expression in
front of any further text that cannot bind more tightly, `Binds` that its placeholders take
exactly its own arguments, and `Denotes` joins both with the value of the expression at a
row. Each way the executor concatenates SQL text has one rule here.
-/

import CppIndexer.Query.Sql

namespace CppIndexer.Query

open List

/-! ## Binding -/

/-- The placeholders of the tokens take the arguments, and leave later arguments alone. -/
def Binds (tokens : List Token) (args : List SqlValue) (bound : List Token) : Prop :=
  ∀ extra, bindTokens (args ++ extra) tokens = (extra, bound)

attribute [local simp] bindTokens

theorem bindTokens_append (args : List SqlValue) (front back : List Token) :
    bindTokens args (front ++ back) = ((bindTokens (bindTokens args front).1 back).1,
        (bindTokens args front).2 ++ (bindTokens (bindTokens args front).1 back).2) := by
  induction front generalizing args with
  | nil => simp
  | cons _ _ ih => simp [ih]

theorem Binds.append {front back : List Token} {first second : List SqlValue}
    {bound later : List Token} (hfront : Binds front first bound) (hback : Binds back second later) :
    Binds (front ++ back) (first ++ second) (bound ++ later) := by
  intro _
  rw [bindTokens_append, append_assoc, hfront, hback]

variable {expr : Expr} {rest tokens : List Token} {token : Token}
  {fuel limit' level level' limit min : ℕ}

/-- A token without placeholders. -/
theorem Binds.plain (h : ∀ args, bindToken args token = (args, token)) : Binds [token] [] [token] := by
  intro _
  simp [h]

theorem bindSlots_replicate (values extra : List SqlValue) :
    bindSlots (values ++ extra) (List.replicate values.length none) = (extra, values.map some) := by
  induction values with
  | nil => rfl
  | cons _ _ ih => simp [replicate_succ, bindSlots, bindSlot, ih]

/-! ## Parsing -/

/-- The tokens do not start with an operator at or above a precedence. -/
def Below (level : ℕ) : List Token → Prop
  | .binary op :: _ => op.precedence < level
  | .is _ :: _ => 4 < level
  | .inList _ :: _ => 4 < level
  | _ => True

theorem Below.mono (h : Below level tokens) (hle : level ≤ level') : Below level' tokens := by
  unfold Below at h ⊢
  split <;> simp_all <;> omega

/-- An operator the precedence excludes ends the expression. -/
theorem parseLoop_of_below (h : Below min rest) (fuel : ℕ)
    (left : Expr) : parseLoop (fuel + 1) min left rest = some (left, rest) := by
  unfold Below at h
  split at h
  · simp [parseLoop, Nat.not_le.mpr h]
  · simp [parseLoop, Nat.not_le.mpr h]
  · simp [parseLoop, Nat.not_le.mpr h]
  · rename_i hbinary his hin
    rw [parseLoop]
    · exact hbinary
    · exact his
    · exact hin

@[simp]
theorem weight_nil : weight [] = 0 := by
  rw [weight]

@[simp]
theorem weight_cons (token : Token) (rest : List Token) :
    weight (token :: rest) = token.weight + weight rest := by
  rw [weight]

@[simp]
theorem weight_append (front back : List Token) :
    weight (front ++ back) = weight front + weight back := by
  induction front with
  | nil => simp
  | cons _ _ ih => simp [ih, Nat.add_assoc]

attribute [local simp] Token.weight

theorem Token.two_le_weight (token : Token) : 2 ≤ token.weight := by
  cases token <;> simp

/-- Before a rest with only looser operators than `level`, the tokens parse as the
expression wherever operators down to `limit` are allowed, on fuel of their weight. -/
def Operand (limit level : ℕ) (tokens : List Token) (expr : Expr) : Prop :=
  ∃ offset ≤ weight tokens, ∀ fuel, weight tokens ≤ fuel + offset → ∀ min ≤ limit, ∀ rest,
    Below level rest → parse (fuel + offset) min (tokens ++ rest) = parseLoop fuel min expr rest

theorem Operand.mono
    (h : Operand limit level tokens expr) (hlimit : limit' ≤ limit) (hlevel : level' ≤ level) :
    Operand limit' level' tokens expr := by
  obtain ⟨offset, hoffset, h⟩ := h
  exact ⟨offset, hoffset, fun fuel hfuel min hmin rest hrest =>
    h fuel hfuel min (hmin.trans hlimit) rest (hrest.mono hlevel)⟩

/-- One token that is an operand by itself. -/
def Primary (token : Token) (expr : Expr) : Prop :=
  token ≠ .not ∧ ∀ fuel, token.weight ≤ fuel + 1 → ∀ rest,
    parsePrimary fuel (token :: rest) = some (expr, rest)

theorem parse_succ_of_ne_not (h : token ≠ .not) (fuel min : ℕ)
    (rest : List Token) : parse (fuel + 1) min (token :: rest) =
      (parsePrimary fuel (token :: rest)).bind fun first => parseLoop fuel min first.1 first.2 := by
  cases token <;> first | rfl | exact absurd rfl h

theorem Primary.operand (h : Primary token expr) (limit : ℕ) : Operand limit 6 [token] expr := by
  have hweight := token.two_le_weight
  refine ⟨1, by simp; omega, fun fuel hfuel min _ rest _ => ?_⟩
  rw [singleton_append, parse_succ_of_ne_not h.1, h.2 fuel (by simpa using hfuel)]
  rfl

theorem primary_slot (slot : Slot) : Primary (.slot slot) (.value slot) := by
  refine ⟨by simp, fun fuel hfuel rest => ?_⟩
  obtain ⟨_, rfl⟩ := Nat.exists_eq_add_of_le' (Nat.le_of_succ_le_succ hfuel)
  rfl

theorem primary_int (value : ℤ) : Primary (.int value) (.value (some (.int value))) := by
  refine ⟨by simp, fun fuel hfuel rest => ?_⟩
  obtain ⟨_, rfl⟩ := Nat.exists_eq_add_of_le' (Nat.le_of_succ_le_succ hfuel)
  rfl

theorem primary_null : Primary .null (.value none) := by
  refine ⟨by simp, fun fuel hfuel rest => ?_⟩
  obtain ⟨_, rfl⟩ := Nat.exists_eq_add_of_le' (Nat.le_of_succ_le_succ hfuel)
  rfl

theorem primary_column (column : Column) (symbolAlias entityAlias : Alias) :
    Primary (.column column symbolAlias entityAlias) (.column column symbolAlias entityAlias) := by
  refine ⟨by simp, fun fuel hfuel rest => ?_⟩
  obtain ⟨_, rfl⟩ := Nat.exists_eq_add_of_le' (Nat.le_of_succ_le_succ hfuel)
  rfl

section

variable (h : Operand limit level tokens expr)
include h

/-- A whole operand in front of text that cannot continue it. -/
theorem Operand.parse_eq (hmin : min ≤ limit) (hlevel : min ≤ level)
    (hfuel : weight tokens < fuel) (hrest : Below min rest) :
    parse fuel min (tokens ++ rest) = some (expr, rest) := by
  obtain ⟨offset, _, h⟩ := h
  obtain ⟨extra, rfl⟩ : ∃ extra, fuel = (extra + 1) + offset := ⟨fuel - offset - 1, by omega⟩
  rw [h (extra + 1) (by omega) min hmin rest (hrest.mono hlevel), parseLoop_of_below hrest]

theorem Operand.parse_all (hfuel : weight tokens < fuel) : parse fuel 0 tokens = some (expr, []) := by
  have hwhole : parse fuel 0 (tokens ++ []) = some (expr, []) :=
    h.parse_eq (Nat.zero_le limit) (Nat.zero_le level) hfuel trivial
  rwa [append_nil] at hwhole

theorem Operand.parseExpr_eq : parseExpr tokens = some expr := by
  rw [parseExpr, h.parse_all (Nat.lt_succ_self _)]

end

/-- A binary operator between operands; the right one binds more tightly. -/
theorem Operand.binary {left right : List Token}
    {leftExpr rightExpr : Expr} {op : BinaryOp} (hleft : Operand limit level left leftExpr)
    (hright : Operand limit' level' right rightExpr) (hlimit : op.precedence ≤ limit)
    (hlevel : op.precedence < level) (hlimit' : op.precedence < limit')
    (hlevel' : op.precedence < level') :
    Operand op.precedence (op.precedence + 1) (left ++ .binary op :: right)
      (.binary op leftExpr rightExpr) := by
  obtain ⟨offset, _, hleft⟩ := hleft
  have hweight : weight (left ++ .binary op :: right) = weight left + (2 + weight right) := by
    simp
  refine ⟨offset + 1, by omega, fun fuel hfuel min hmin rest hrest => ?_⟩
  have hshape : fuel + (offset + 1) = (fuel + 1) + offset := by omega
  have hbelow : Below level (.binary op :: (right ++ rest)) := hlevel
  rw [hshape, append_assoc, cons_append,
    hleft (fuel + 1) (by omega) min (hmin.trans hlimit) _ hbelow, parseLoop, if_pos hmin,
    hright.parse_eq hlimit' hlevel' (by omega) hrest]
  rfl

/-- `IS` after an operand. -/
theorem Operand.is (test : IsTest)
    (h : Operand limit level tokens expr) (hlimit : 4 ≤ limit) (hlevel : 4 < level) :
    Operand 4 6 (tokens ++ [.is test]) (.is test expr) := by
  obtain ⟨offset, _, h⟩ := h
  have hweight : weight (tokens ++ [.is test]) = weight tokens + 2 := by simp
  refine ⟨offset + 1, by omega, fun fuel hfuel min hmin rest _ => ?_⟩
  have hshape : fuel + (offset + 1) = (fuel + 1) + offset := by omega
  have hbelow : Below level (.is test :: rest) := hlevel
  rw [hshape, append_assoc, singleton_append,
    h (fuel + 1) (by omega) min (hmin.trans hlimit) _ hbelow, parseLoop, if_pos hmin]

/-- `IN` after an operand. -/
theorem Operand.inList (slots : List Slot)
    (h : Operand limit level tokens expr) (hlimit : 4 ≤ limit) (hlevel : 4 < level) :
    Operand 4 6 (tokens ++ [.inList slots]) (.inList expr slots) := by
  obtain ⟨offset, _, h⟩ := h
  have hweight : weight (tokens ++ [.inList slots]) = weight tokens + 2 := by simp
  refine ⟨offset + 1, by omega, fun fuel hfuel min hmin rest _ => ?_⟩
  have hshape : fuel + (offset + 1) = (fuel + 1) + offset := by omega
  have hbelow : Below level (.inList slots :: rest) := hlevel
  rw [hshape, append_assoc, singleton_append,
    h (fuel + 1) (by omega) min (hmin.trans hlimit) _ hbelow, parseLoop, if_pos hmin]

theorem Operand.paren (h : Operand limit level tokens expr) (limit' : ℕ) :
    Operand limit' 6 (.lparen :: tokens ++ [.rparen]) expr := by
  have hweight : weight (.lparen :: tokens ++ [.rparen]) = weight tokens + 4 := by
    simp
    omega
  refine ⟨1, by omega, fun fuel hfuel min _ rest _ => ?_⟩
  obtain ⟨extra, rfl⟩ : ∃ extra, fuel = extra + 1 := ⟨fuel - 1, by omega⟩
  have htext : .lparen :: tokens ++ [.rparen] ++ rest =
      .lparen :: (tokens ++ .rparen :: rest) := by simp
  have hbelow : Below 0 (.rparen :: rest) := by simp [Below]
  rw [htext, parse_succ_of_ne_not (by simp), parsePrimary,
    h.parse_eq (Nat.zero_le limit) (Nat.zero_le level) (by omega) hbelow]
  rfl

/-- `NOT` reaches over every operator that binds more tightly than itself. -/
theorem Operand.not (h : Operand limit level tokens expr) (hlimit : 3 ≤ limit) (hlevel : 3 ≤ level)
    (limit' : ℕ) : Operand limit' 3 (.not :: tokens) (.not expr) := by
  have hweight : weight (.not :: tokens) = 2 + weight tokens := by simp
  refine ⟨1, by omega, fun fuel hfuel min _ rest hrest => ?_⟩
  rw [cons_append, parse, h.parse_eq hlimit hlevel (by omega) hrest]
  rfl

/-- The cases of a `CASE` up to its `END`; they start with a keyword. -/
def Cases (tokens : List Token) (expr : Expr) : Prop :=
  (∀ rest, Below 0 (tokens ++ rest)) ∧
    ∀ fuel ≥ weight tokens, ∀ rest, parseCase fuel (tokens ++ rest) = some (expr, rest)

theorem Operand.case (h : Cases tokens expr) (limit : ℕ) : Operand limit 6 (.caseKw :: tokens) expr := by
  have hweight : weight (.caseKw :: tokens) = 2 + weight tokens := by simp
  refine ⟨1, by omega, fun fuel hfuel min _ rest _ => ?_⟩
  obtain ⟨extra, rfl⟩ : ∃ extra, fuel = extra + 1 := ⟨fuel - 1, by omega⟩
  rw [cons_append, parse_succ_of_ne_not (by simp), parsePrimary, h.2 extra (by omega)]
  rfl

/-- `WHEN condition THEN result`. -/
def whenThen (condition result : List Token) : List Token :=
  .whenKw :: condition ++ .thenKw :: result

/-- `ELSE NULL END`. -/
def elseNull : List Token := [.elseKw, .null, .endKw]

theorem cases_elseNull : Cases elseNull (.value none) := by
  refine ⟨fun rest => by simp [elseNull, Below], fun fuel hfuel rest => ?_⟩
  have hweight : weight elseNull = 6 := by simp [elseNull]
  obtain ⟨extra, rfl⟩ : ∃ extra, fuel = extra + 6 := ⟨fuel - 6, by omega⟩
  rfl

theorem Operand.whenThen {condition result : List Token}
    {conditionExpr resultExpr : Expr} (hcondition : Operand limit level condition conditionExpr)
    (hresult : Operand limit' level' result resultExpr) (hcases : Cases tokens expr) :
    Cases (whenThen condition result ++ tokens) (.caseWhen conditionExpr resultExpr expr) := by
  have hweight : weight (Query.whenThen condition result ++ tokens) =
      weight condition + weight result + weight tokens + 4 := by
    simp [Query.whenThen]
    omega
  refine ⟨fun rest => by simp [Query.whenThen, Below], fun fuel hfuel rest => ?_⟩
  obtain ⟨extra, rfl⟩ : ∃ extra, fuel = extra + 1 := ⟨fuel - 1, by omega⟩
  have htext : Query.whenThen condition result ++ tokens ++ rest =
      .whenKw :: (condition ++ .thenKw :: (result ++ (tokens ++ rest))) := by
    simp [Query.whenThen]
  have hbelow : Below 0 (.thenKw :: (result ++ (tokens ++ rest))) := by simp [Below]
  rw [htext, parseCase, hcondition.parse_eq (Nat.zero_le limit) (Nat.zero_le level) (by omega) hbelow]
  show ((parse extra 0 (result ++ (tokens ++ rest))).bind _) = _
  rw [hresult.parse_eq (Nat.zero_le limit') (Nat.zero_le level') (by omega) (hcases.1 rest)]
  show (parseCase extra (tokens ++ rest)).map _ = _
  rw [hcases.2 extra (by omega)]
  rfl

/-! ## Values -/

/-- A value at each row of each database, for each pattern matcher. -/
abbrev RowValue := (String → String → Bool) → Db → SymbolRow → Option SqlValue

/-- The environment has a row and its entity row under the two aliases. -/
def Env.Holds (env : Env) (db : Db) (symbolAlias entityAlias : Alias) (row : SymbolRow) : Prop :=
  env.symbol symbolAlias = some row ∧ env.entity entityAlias = db.entityKind row.id

/-- The tokens with their arguments parse as an operand that has the value at each row. -/
def Denotes (limit level : ℕ) (tokens : List Token) (args : List SqlValue)
    (symbolAlias entityAlias : Alias) (value : RowValue) : Prop :=
  ∃ bound expr, Binds tokens args bound ∧ Operand limit level bound expr ∧
    ∀ glob db env row, env.Holds db symbolAlias entityAlias row →
      eval glob db expr env = value glob db row

/-- The same for the cases of a `CASE`. -/
def DenotesCases (tokens : List Token) (args : List SqlValue) (symbolAlias entityAlias : Alias)
    (value : RowValue) : Prop :=
  ∃ bound expr, Binds tokens args bound ∧ Cases bound expr ∧
    ∀ glob db env row, env.Holds db symbolAlias entityAlias row →
      eval glob db expr env = value glob db row

section Denotes

variable {limit level limit' level' : ℕ} {tokens tokens' : List Token} {args args' : List SqlValue}
  {symbolAlias entityAlias : Alias} {value value' : RowValue}

section

variable (h : Denotes limit level tokens args symbolAlias entityAlias value)
include h

theorem Denotes.mono (hlimit : limit' ≤ limit) (hlevel : level' ≤ level) :
    Denotes limit' level' tokens args symbolAlias entityAlias value := by
  obtain ⟨bound, expr, hbinds, hoperand, heval⟩ := h
  exact ⟨bound, expr, hbinds, hoperand.mono hlimit hlevel, heval⟩

theorem Denotes.congr (hvalue : value = value') :
    Denotes limit level tokens args symbolAlias entityAlias value' := hvalue ▸ h

end

theorem denotes_int (limit : ℕ) (k : ℤ) (symbolAlias entityAlias : Alias) :
    Denotes limit 6 [.int k] [] symbolAlias entityAlias fun _ _ _ => some (.int k) :=
  ⟨[.int k], _, Binds.plain fun _ => rfl, (primary_int k).operand limit, fun _ _ _ _ _ => rfl⟩

theorem denotes_null (limit : ℕ) (symbolAlias entityAlias : Alias) :
    Denotes limit 6 [.null] [] symbolAlias entityAlias fun _ _ _ => none :=
  ⟨[.null], _, Binds.plain fun _ => rfl, primary_null.operand limit, fun _ _ _ _ _ => rfl⟩

theorem denotes_slot (limit : ℕ) (bound : SqlValue) (symbolAlias entityAlias : Alias) :
    Denotes limit 6 [.slot none] [bound] symbolAlias entityAlias fun _ _ _ => some bound :=
  ⟨[.slot (some bound)], _, fun _ => rfl, (primary_slot (some bound)).operand limit,
    fun _ _ _ _ _ => rfl⟩

theorem denotes_column (limit : ℕ) (column : Column) (symbolAlias entityAlias : Alias) :
    Denotes limit 6 [.column column symbolAlias entityAlias] [] symbolAlias entityAlias
      fun _ db row => column.value db row (db.entityKind row.id) := by
  refine ⟨[.column column symbolAlias entityAlias], _, Binds.plain fun _ => rfl,
    (primary_column column symbolAlias entityAlias).operand limit, ?_⟩
  intro _ _ _ _ henv
  rw [eval, henv.1, henv.2]
  rfl

theorem Denotes.binary (h : Denotes limit level tokens args symbolAlias entityAlias value)
    (op : BinaryOp) (h' : Denotes limit' level' tokens' args' symbolAlias entityAlias value')
    (hlimit : op.precedence ≤ limit) (hlevel : op.precedence < level)
    (hlimit' : op.precedence < limit') (hlevel' : op.precedence < level') :
    Denotes op.precedence (op.precedence + 1) (tokens ++ .binary op :: tokens') (args ++ args')
      symbolAlias entityAlias fun glob db row =>
        op.apply glob (value glob db row) (value' glob db row) := by
  obtain ⟨bound, expr, hbinds, hoperand, heval⟩ := h
  obtain ⟨bound', expr', hbinds', hoperand', heval'⟩ := h'
  have hop : Binds [.binary op] [] [.binary op] := Binds.plain fun _ => rfl
  refine ⟨bound ++ .binary op :: bound', .binary op expr expr', hbinds.append (hop.append hbinds'),
    hoperand.binary hoperand' hlimit hlevel hlimit' hlevel', ?_⟩
  intro glob db env row henv
  rw [eval, heval glob db env row henv, heval' glob db env row henv]

theorem inValues_map_some (value : Option SqlValue) (values : List SqlValue) :
    inValues value (values.map some) = value.bind fun value => some (decide (value ∈ values)) := by
  cases value with
  | none => rfl
  | some value => by_cases h : value ∈ values <;> simp [inValues, h]

section

variable (h : Denotes limit level tokens args symbolAlias entityAlias value)
include h

theorem Denotes.inList (values : List SqlValue) (hlimit : 4 ≤ limit) (hlevel : 4 < level) :
    Denotes 4 6 (tokens ++ [.inList (List.replicate values.length none)]) (args ++ values)
      symbolAlias entityAlias fun glob db row =>
        ofKleene ((value glob db row).bind fun value => some (decide (value ∈ values))) := by
  obtain ⟨_, _, hbinds, hoperand, heval⟩ := h
  have hlist : Binds [.inList (List.replicate values.length none)] values
      [.inList (values.map some)] := by
    intro _
    simp [bindToken, bindSlots_replicate]
  refine ⟨_, _, hbinds.append hlist, hoperand.inList _ hlimit hlevel, ?_⟩
  intro glob db env row henv
  rw [eval, heval glob db env row henv, inValues_map_some]

theorem Denotes.paren
    (limit' : ℕ) : Denotes limit' 6 (.lparen :: tokens ++ [.rparen]) args symbolAlias entityAlias
      value := by
  obtain ⟨_, expr, hbinds, hoperand, heval⟩ := h
  have hleft : Binds [.lparen] [] [.lparen] := Binds.plain fun _ => rfl
  have hright : Binds [.rparen] [] [.rparen] := Binds.plain fun _ => rfl
  have hall := (hleft.append hbinds).append hright
  rw [nil_append, append_nil] at hall
  exact ⟨_, expr, hall, hoperand.paren limit', heval⟩

theorem Denotes.not (hlimit : 3 ≤ limit) (hlevel : 3 ≤ level) (limit' : ℕ) :
    Denotes limit' 3 (.not :: tokens) args symbolAlias entityAlias fun glob db row =>
      ofKleene (truth (value glob db row)).not := by
  obtain ⟨_, _, hbinds, hoperand, heval⟩ := h
  have hnot : Binds [.not] [] [.not] := Binds.plain fun _ => rfl
  refine ⟨_, _, hnot.append hbinds, hoperand.not hlimit hlevel limit', ?_⟩
  intro glob db env row henv
  rw [eval, heval glob db env row henv]

theorem Denotes.is (test : IsTest) (hlimit : 4 ≤ limit) (hlevel : 4 < level) :
    Denotes 4 6 (tokens ++ [.is test]) args symbolAlias entityAlias fun glob db row =>
      ofKleene (some (test.holds (value glob db row))) := by
  obtain ⟨_, _, hbinds, hoperand, heval⟩ := h
  have his : Binds [.is test] [] [.is test] := Binds.plain fun _ => rfl
  have hall := hbinds.append his
  rw [append_nil] at hall
  refine ⟨_, _, hall, hoperand.is test hlimit hlevel, ?_⟩
  intro glob db env row henv
  rw [eval, heval glob db env row henv]

end

theorem denotesCases_elseNull (symbolAlias entityAlias : Alias) :
    DenotesCases elseNull [] symbolAlias entityAlias fun _ _ _ => none :=
  ⟨elseNull, _, fun _ => rfl, cases_elseNull, fun _ _ _ _ _ => rfl⟩

theorem DenotesCases.whenThen {cases : List Token} {later : List SqlValue}
    {otherwise : RowValue} (h : Denotes limit level tokens args symbolAlias entityAlias value)
    (h' : Denotes limit' level' tokens' args' symbolAlias entityAlias value')
    (hcases : DenotesCases cases later symbolAlias entityAlias otherwise) :
    DenotesCases (whenThen tokens tokens' ++ cases) (args ++ args' ++ later) symbolAlias
      entityAlias fun glob db row =>
        if truth (value glob db row) = some true then value' glob db row
        else otherwise glob db row := by
  obtain ⟨_, _, hbinds, hoperand, heval⟩ := h
  obtain ⟨_, _, hbinds', hoperand', heval'⟩ := h'
  obtain ⟨_, _, hrest, hparse, hother⟩ := hcases
  have hwhen : Binds [.whenKw] [] [.whenKw] := Binds.plain fun _ => rfl
  have hthen : Binds [.thenKw] [] [.thenKw] := Binds.plain fun _ => rfl
  have hall := ((hwhen.append hbinds).append (hthen.append hbinds')).append hrest
  refine ⟨_, _, hall, hoperand.whenThen hoperand' hparse, ?_⟩
  intro glob db env row henv
  rw [eval, heval glob db env row henv, heval' glob db env row henv, hother glob db env row henv]

theorem DenotesCases.operand (h : DenotesCases tokens args symbolAlias entityAlias value)
    (limit : ℕ) : Denotes limit 6 (.caseKw :: tokens) args symbolAlias entityAlias value := by
  obtain ⟨_, expr, hbinds, hcases, heval⟩ := h
  have hcase : Binds [.caseKw] [] [.caseKw] := Binds.plain fun _ => rfl
  exact ⟨_, expr, hcase.append hbinds, Operand.case hcases limit, heval⟩

end Denotes

/-! ## Counting subqueries -/

variable {expr : Expr} {tokens : List Token} {limit level : ℕ}

theorem primary_countDirect (h : Operand limit level tokens expr) (shape : CountShape) (kind : Slot) :
    Primary (.countDirect shape tokens kind) (.countDirect shape expr kind) := by
  refine ⟨by simp, fun fuel hfuel rest => ?_⟩
  simp only [Token.weight] at hfuel
  obtain ⟨extra, rfl⟩ : ∃ extra, fuel = extra + 1 := ⟨fuel - 1, by omega⟩
  rw [parsePrimary, h.parse_all (by omega)]
  rfl

theorem primary_countReach (h : Operand limit level tokens expr) (shape : CountShape)
    (firstKind nextKind depth minDepth maxDepth : Slot) :
    Primary (.countReach shape firstKind nextKind depth tokens minDepth maxDepth)
      (.countReach shape firstKind nextKind depth expr minDepth maxDepth) := by
  refine ⟨by simp, fun fuel hfuel rest => ?_⟩
  simp only [Token.weight] at hfuel
  obtain ⟨extra, rfl⟩ : ∃ extra, fuel = extra + 1 := ⟨fuel - 1, by omega⟩
  rw [parsePrimary, h.parse_all (by omega)]
  rfl

variable {inbound : Bool} {shape : CountShape} {db : Db} {table : EdgeTable} {env : Env}
  {a b kind start : ℤ}

open Classical in
/-- `DISTINCT` leaves one row for each target, since ids are unique. -/
theorem countRows_eq {targets : List SymbolRow} {holds : SymbolRow → Prop}
    (hmem : ∀ target, target ∈ targets ↔ target ∈ db.symbols ∧ holds target)
    (truth : TargetTruth) (value : SymbolRow → Option SqlValue) :
    countRows truth (targets.map fun target => (target.id, value target)) =
      ((db.symbols.filter holds).countP fun target => truth.test.holds (value target) : ℕ) := by
  have hids : (db.symbols.map (·.id)).Nodup := db.symbols_sorted.imp ne_of_lt
  have hnodup : ((db.symbols.filter holds).map fun target => (target.id, value target)).Nodup := by
    apply List.Nodup.of_map Prod.fst
    rw [map_map]
    exact hids.sublist (filter_sublist.map _)
  have hperm : ((targets.map fun target => (target.id, value target)).dedup).Perm
      ((db.symbols.filter holds).map fun target => (target.id, value target)) := by
    apply (perm_ext_iff_of_nodup (nodup_dedup _) hnodup).mpr
    intro _
    simp [hmem]
  unfold countRows
  rw [hperm.countP_eq, countP_map]
  rfl

theorem walk_one_iff : Walk db table kind inbound 1 a b ↔ ∃ edge ∈ db.endpoints table, edge.kind = kind ∧
      edge.source inbound = a ∧ edge.target inbound = b := by
  constructor
  · intro h
    cases h with
    | one hedge hkind => exact ⟨_, hedge, hkind, rfl, rfl⟩
    | step hwalk => nomatch hwalk
  · rintro ⟨_, hedge, hkind, rfl, rfl⟩
    exact Walk.one hedge hkind

theorem walk_succ_iff {n : ℕ} :
    Walk db table kind inbound (n + 2) a b ↔ ∃ edge ∈ db.endpoints table, edge.kind = kind ∧
      Walk db table kind inbound (n + 1) a (edge.source inbound) ∧ edge.target inbound = b := by
  constructor
  · intro h
    cases h with
    | step hwalk hedge hkind => exact ⟨_, hedge, hkind, hwalk, rfl⟩
  · rintro ⟨_, hedge, hkind, hwalk, rfl⟩
    exact Walk.step hwalk hedge hkind

theorem mem_hop : b ∈ hop db shape (some (.int kind)) a ↔ ∃ edge ∈ db.endpoints shape.table,
      edge.kind = kind ∧ edge.source shape.inbound = a ∧ edge.target shape.inbound = b := by
  simp only [hop, mem_map, mem_filter, decide_eq_true_eq, Option.some.injEq, SqlValue.int.injEq]
  grind

/-- The ids after more hops from those of the first. -/
def hops (db : Db) (shape : CountShape) (kind : Slot) (n : ℕ) (ids : List ℤ) : List ℤ :=
  (fun ids => ids.flatMap (hop db shape kind))^[n] ids

theorem mem_hops (n : ℕ) : b ∈ hops db shape (some (.int kind)) n (hop db shape (some (.int kind)) a) ↔
      Walk db shape.table kind shape.inbound (n + 1) a b := by
  induction n generalizing b with
  | zero => rw [walk_one_iff]; exact mem_hop
  | succ _ ih =>
    rw [walk_succ_iff, hops, Function.iterate_succ_apply', mem_flatMap]
    constructor
    · rintro ⟨_, hmiddle, hb⟩
      obtain ⟨edge, hedge, hkind, hsource, htarget⟩ := mem_hop.mp hb
      exact ⟨edge, hedge, hkind, hsource ▸ ih.mp hmiddle, htarget⟩
    · rintro ⟨edge, hedge, hkind, hwalk, htarget⟩
      exact ⟨_, ih.mpr hwalk, mem_hop.mpr ⟨edge, hedge, hkind, rfl, htarget⟩⟩

theorem mem_reachRows {kind : Slot} {left : ℕ} {depth : ℤ}
    {ids : List ℤ} {row : ℤ × ℤ} : row ∈ reachRows db shape kind left depth ids ↔
      ∃ n < left, row.2 = depth + n ∧ row.1 ∈ hops db shape kind n ids := by
  induction left generalizing depth ids with
  | zero => simp [reachRows]
  | succ left ih =>
    rw [reachRows, mem_append, ih]
    constructor
    · rintro (hrow | ⟨n, hn, hdepth, hid⟩)
      · obtain ⟨_, hid, rfl⟩ := mem_map.mp hrow
        exact ⟨0, Nat.succ_pos left, by simp, hid⟩
      · exact ⟨n + 1, by omega, by push_cast; omega, hid⟩
    · rintro ⟨n, _, hdepth, hid⟩
      cases n with
      | zero =>
        apply Or.inl
        apply mem_map.mpr
        exact ⟨row.1, hid, by ext <;> simp [hdepth]⟩
      | succ n =>
        apply Or.inr
        exact ⟨n, by omega, by push_cast at hdepth; omega, hid⟩

theorem mem_directTargets (houter : env.idOf shape.outer = some start) (hne : shape.outer ≠ shape.target)
    (target : SymbolRow) : target ∈ directTargets db shape (some (.int kind)) env ↔
      target ∈ db.symbols ∧ Walk db shape.table kind shape.inbound 1 start target.id := by
  have hbind : ∀ row, (env.bind db shape.target shape.entity row).idOf shape.outer =
      some start := by
    intro row
    show (Function.update env.symbol shape.target (some row) shape.outer).map (·.id) = some start
    rw [Function.update_of_ne hne]
    exact houter
  rw [walk_one_iff]
  simp only [directTargets, mem_flatMap, mem_filter, decide_eq_true_eq, hbind,
    Option.some.injEq, SqlValue.int.injEq]
  grind

theorem between_iff (glob : String → String → Bool) (depth minDepth maxDepth : ℤ) :
    between glob depth (some (.int minDepth)) (some (.int maxDepth)) = true ↔
      minDepth ≤ depth ∧ depth ≤ maxDepth := by
  by_cases hmin : minDepth ≤ depth <;> by_cases hmax : depth ≤ maxDepth <;>
    simp [between, BinaryOp.apply, SqlValue.le, hmin, hmax, ofKleene, truth, Kleene.and]

variable {minDepth maxDepth : ℤ}

theorem mem_reachTargets {glob : String → String → Bool}
    (houter : env.idOf shape.outer = some start) (hmin : 1 ≤ minDepth) (hmax : 1 ≤ maxDepth)
    (target : SymbolRow) :
    target ∈ reachTargets glob db shape (some (.int kind)) (some (.int kind))
        (some (.int maxDepth)) (some (.int minDepth)) (some (.int maxDepth)) env ↔
      target ∈ db.symbols ∧ ∃ n : ℕ, minDepth ≤ n ∧ n ≤ maxDepth ∧
        Walk db shape.table kind shape.inbound n start target.id := by
  simp only [reachTargets, houter, Option.map_some, Option.getD_some, mem_flatMap,
    mem_reachRows, mem_filter, decide_eq_true_eq, between_iff, depthCount, max_eq_right hmax]
  constructor
  · rintro ⟨⟨_, _⟩, ⟨n, _, hdepth, hid⟩, hsymbol, rfl, hlow, hhigh⟩
    simp only at hdepth hid hlow hhigh
    refine ⟨hsymbol, n + 1, ?_, ?_, (mem_hops n).mp hid⟩
    · push_cast; omega
    · push_cast; omega
  · rintro ⟨hsymbol, n, hlow, hhigh, hwalk⟩
    obtain ⟨n, rfl⟩ : ∃ k, n = k + 1 := Nat.exists_eq_succ_of_ne_zero (by omega)
    push_cast at hlow hhigh
    refine ⟨(target.id, 1 + n), ⟨n, by omega, rfl, (mem_hops n).mpr hwalk⟩, hsymbol, rfl, ?_, ?_⟩
    · show minDepth ≤ 1 + (n : ℤ)
      omega
    · show 1 + (n : ℤ) ≤ maxDepth
      omega

theorem Env.Holds.bind (env : Env) (db : Db) (target entity : Alias) (row : SymbolRow) :
    (env.bind db target entity row).Holds db target entity row :=
  ⟨Function.update_self .., Function.update_self ..⟩

section Count

variable {limit level : ℕ} {tokens : List Token} {args : List SqlValue} {value : RowValue}
  {shape : CountShape} {relation : RelationDesc}

section

variable (h : Denotes limit level tokens args shape.target shape.entity value)
include h

/-- The subquery over single edges counts the targets one step away. -/
theorem denotes_countDirect
    (hne : shape.outer ≠ shape.target) (htable : shape.table = relation.table) (limit' : ℕ)
    (entityAlias : Alias) :
    Denotes limit' 6 [.countDirect shape tokens none] (args ++ [.int relation.kindId])
      shape.outer entityAlias fun glob db row =>
        some (.int ((reached db relation shape.inbound 1 1 row.id).countP
          fun target => shape.truth.test.holds (value glob db target) : ℕ)) := by
  obtain ⟨bound, expr, hbinds, hoperand, heval⟩ := h
  have hcount : Binds [.countDirect shape tokens none] (args ++ [.int relation.kindId])
      [.countDirect shape bound (some (.int relation.kindId))] := by
    intro extra
    simp [bindToken, bindSlot, hbinds (.int relation.kindId :: extra)]
  refine ⟨_, _, hcount, (primary_countDirect hoperand shape _).operand limit', ?_⟩
  intro glob db env row henv
  have houter : env.idOf shape.outer = some row.id := by rw [Env.idOf, henv.1]; rfl
  have hvalue : ∀ target, eval glob db expr (env.bind db shape.target shape.entity target) =
      value glob db target :=
    fun target => heval glob db _ target (Env.Holds.bind env db _ _ target)
  have hone : ∀ target : SymbolRow, (target ∈ db.symbols ∧
      Walk db shape.table relation.kindId shape.inbound 1 row.id target.id) ↔
        (target ∈ db.symbols ∧ ∃ n : ℕ, (1 : ℤ) ≤ n ∧ (n : ℤ) ≤ 1 ∧
          Walk db relation.table relation.kindId shape.inbound n row.id target.id) := by
    intro _
    rw [htable]
    constructor
    · rintro ⟨hsymbol, hwalk⟩
      exact ⟨hsymbol, 1, by simp, by simp, hwalk⟩
    · rintro ⟨hsymbol, n, _, _, hwalk⟩
      obtain rfl : n = 1 := by omega
      exact ⟨hsymbol, hwalk⟩
  simp only [eval, hvalue]
  rw [countRows_eq fun target => (mem_directTargets houter hne target).trans (hone target)]
  rfl

/-- The recursive subquery counts the targets of every walk in the window. -/
theorem denotes_countReach (htable : shape.table = relation.table) (hmin : 1 ≤ minDepth)
    (hmax : 1 ≤ maxDepth) (limit' : ℕ) (entityAlias : Alias) :
    Denotes limit' 6 [.countReach shape none none none tokens none none]
      ([.int relation.kindId, .int relation.kindId, .int maxDepth] ++ args ++
        [.int minDepth, .int maxDepth]) shape.outer entityAlias fun glob db row =>
        some (.int ((reached db relation shape.inbound minDepth maxDepth row.id).countP
          fun target => shape.truth.test.holds (value glob db target) : ℕ)) := by
  obtain ⟨bound, expr, hbinds, hoperand, heval⟩ := h
  have hcount : Binds [.countReach shape none none none tokens none none]
      ([.int relation.kindId, .int relation.kindId, .int maxDepth] ++ args ++
        [.int minDepth, .int maxDepth])
      [.countReach shape (some (.int relation.kindId)) (some (.int relation.kindId))
        (some (.int maxDepth)) bound (some (.int minDepth)) (some (.int maxDepth))] := by
    intro extra
    simp [bindToken, bindSlot, hbinds (.int minDepth :: .int maxDepth :: extra)]
  refine ⟨_, _, hcount, (primary_countReach hoperand shape ..).operand limit', ?_⟩
  intro glob db env row henv
  have houter : env.idOf shape.outer = some row.id := by rw [Env.idOf, henv.1]; rfl
  have hvalue : ∀ target, eval glob db expr (env.bind db shape.target shape.entity target) =
      value glob db target :=
    fun target => heval glob db _ target (Env.Holds.bind env db _ _ target)
  simp only [eval, hvalue]
  rw [countRows_eq (mem_reachTargets houter hmin hmax), htable]
  rfl

end

end Count

end CppIndexer.Query
