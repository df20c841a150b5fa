import PropCheck.Script.Scope

/-!
# What reading a script can give

A condition on whatever a reader gives is shown along the steps of the reader: what the last step
returns must satisfy it, and a failure gives nothing.

* `Grammar.Yields`: whatever is read satisfies a condition.
* `Grammar.Yields.bind`, `Grammar.Yields.ite`, `Grammar.Yields.many`: the condition along steps,
  branches and repetitions.
* `Stmt.NamesBindable`: the class that a statement declares, exported or not, is named by a word
  that may be bound.
* `Grammar.yields_statement`: so it is for every statement that is read.
* `namesBindable_of_mem_statementsOf`: so it is for every statement of a script.
-/

namespace PropCheck.Script

/-- The name of the class, if it has one, is a word that may be bound. -/
def Class.NameBindable : Class → Prop
  | .mk _ name .. => ∀ n, name = some n → isBindable n.text = true

/-- The class that the statement declares, if it declares one, is named by a word that may be bound.
-/
def Stmt.NamesBindable : Stmt → Prop
  | .classDecl c | .exported (.classDecl c) => c.NameBindable
  | _ => True

theorem Stmt.NamesBindable.exported {s : Stmt} (h : s.NamesBindable) :
    (Stmt.exported s).NamesBindable := by
  cases s with
  | classDecl c => exact h
  | _ => trivial

namespace Grammar

/-! ### Conditions on what is read -/

/-- What a repetition has come to, whether it goes on or not. -/
def Next.state {σ : Type} : Next σ → σ
  | again state => state
  | done state => state

/-- Whatever is read satisfies a condition. -/
def Yields {α : Type} (p : Parse α) (Q : α → Prop) : Prop :=
  ∀ cursor memory a cursor', ((p.run cursor).run.run memory).1 = some (a, cursor') → Q a

namespace Yields

variable {α β : Type} {Q : α → Prop} {R : β → Prop}

theorem pure {a : α} (h : Q a) : Yields (pure a) Q := by
  intro cursor memory b cursor' hb
  cases hb
  exact h

theorem failure : Yields failure Q := by
  intro cursor memory b cursor' hb
  cases hb

theorem bind {p : Parse α} {f : α → Parse β} (hp : Yields p Q)
    (hf : ∀ a, Q a → Yields (f a) R) : Yields (p >>= f) R := by
  intro cursor memory b cursor' hb
  rw [StateT.run_bind, OptionT.run_bind, Option.elimM, StateT.run_bind] at hb
  rcases hx : (p.run cursor).run.run memory with ⟨_ | ⟨a, c⟩, m⟩
  · rw [hx] at hb
    cases hb
  · rw [hx] at hb
    have ha : Q a := hp cursor memory a c (by rw [hx])
    exact hf a ha c m b cursor' hb

/-- What comes before the last step does not matter. -/
theorem andThen {p : Parse α} {f : α → Parse β} (hf : ∀ a, Yields (f a) R) :
    Yields (p >>= f) R := by
  have hp : Yields p fun _ => True := fun _ _ _ _ _ => trivial
  exact hp.bind fun a _ => hf a

theorem ite {c : Prop} [Decidable c] {p q : Parse α} (hp : Yields p Q) (hq : Yields q Q) :
    Yields (if c then p else q) Q := by
  split
  · exact hp
  · exact hq

theorem within {change : Context → Context} {p : Parse α} (hp : Yields p Q) :
    Yields (within change p) Q := by
  refine andThen fun _ => andThen fun _ => ?_
  exact hp.bind fun a ha => andThen fun _ => pure ha

/-- What one step keeps, a repetition keeps. -/
theorem iterate {σ : Type} {I : σ → Prop} {step : σ → Parse (Next σ)}
    (hstep : ∀ state, I state → Yields (step state) fun next => I next.state)
    (times : Nat) {state : σ} (h : I state) : Yields (iterate step times state) I := by
  induction times generalizing state with
  | zero => exact failure
  | succ times ih =>
    refine (hstep state h).bind fun next hnext => ?_
    cases next with
    | again state => exact ih hnext
    | done state => exact pure hnext

theorem many {item : Parse (Option α)} (hitem : Yields item fun a => ∀ x, a = some x → Q x) :
    Yields (many item) fun as => ∀ a ∈ as, Q a := by
  have hnil : ∀ a ∈ ([] : List α), Q a := fun a ha => absurd ha List.not_mem_nil
  refine bind
    (andThen fun _ => iterate (I := fun acc => ∀ a ∈ acc, Q a) (fun acc hacc => ?_) _ hnil)
    fun items hitems => ?_
  · refine hitem.bind fun found hfound => ?_
    cases found with
    | none => exact pure hacc
    | some a => exact pure (List.forall_mem_cons.mpr ⟨hfound a rfl, hacc⟩)
  · exact pure fun a ha => hitems a (List.mem_reverse.mp ha)

end Yields

/-! ### Names of classes -/

theorem yields_bindingName : Yields bindingName fun n => isBindable n.text = true := by
  refine .andThen fun t => ?_
  split
  · split
    · rename_i hbindable
      exact .andThen fun _ => .andThen fun _ => .andThen fun _ => .pure hbindable
    · exact .failure
  · exact .failure

theorem yields_className : Yields className fun name =>
    ∀ n, name = some n → isBindable n.text = true := by
  refine .andThen fun t => ?_
  split
  · refine yields_bindingName.bind fun name hname => .pure ?_
    rintro n ⟨⟩
    exact hname
  · exact .pure fun n hn => by cases hn

variable (self : Rules)

theorem yields_classAfterWord (start : Nat) (decorations : List Part) :
    Yields (classAfterWord self start decorations) Class.NameBindable := by
  refine yields_className.bind fun name hname => ?_
  iterate 6 refine .andThen fun _ => ?_
  exact .pure hname

theorem yields_readClass (start : Nat) (decorations : List Part) :
    Yields (readClass self start decorations) Class.NameBindable :=
  .andThen fun _ => yields_classAfterWord self start decorations

/-! ### Statements

Of the rules for statements only those for classes and for exports return something that the
condition is about.  Each of the others ends in a statement of another kind.  What a rule goes on
with behind its branches is looked at once, as `rest`. -/

theorem yields_variableStatement (kind : VariableKind) :
    Yields (variableStatement self kind) Stmt.NamesBindable :=
  .andThen fun _ => .andThen fun _ => .andThen fun _ => .pure trivial

theorem yields_letStatement (alone : Bool) :
    Yields (letStatement self alone) Stmt.NamesBindable := by
  refine .andThen fun _ => .andThen fun next => .ite ?_ (.ite ?_ (.ite ?_ ?_))
  · exact .andThen fun e => .andThen fun _ => .pure trivial
  · exact .andThen fun e => .andThen fun _ => .pure trivial
  · exact .andThen fun name => .andThen fun _ => .pure trivial
  · exact .andThen fun _ => yields_variableStatement self .lex

theorem yields_usingStatement : Yields (usingStatement self) Stmt.NamesBindable :=
  .andThen fun _ => .andThen fun _ => .andThen fun _ => .pure trivial

theorem yields_ifStatement : Yields (ifStatement self) Stmt.NamesBindable := by
  refine .andThen fun _ => .andThen fun test => .andThen fun yes => .andThen fun _ => .ite ?_ ?_
  · exact .andThen fun no => .pure trivial
  · exact .pure trivial

theorem yields_doStatement : Yields (doStatement self) Stmt.NamesBindable :=
  .andThen fun _ => .andThen fun _ => .andThen fun _ => .andThen fun _ => .andThen fun _ =>
    .pure trivial

theorem yields_whileStatement : Yields (whileStatement self) Stmt.NamesBindable :=
  .andThen fun _ => .andThen fun _ => .andThen fun _ => .pure trivial

theorem yields_forTail (first : Part) : Yields (forTail self first) Stmt.NamesBindable :=
  .andThen fun _ => .andThen fun _ => .andThen fun _ => .andThen fun _ => .andThen fun _ =>
    .andThen fun _ => .pure trivial

/-- A loop over elements is no declaration. -/
theorem yields_forElements (first : Part) :
    Yields (forElements self first) fun s => ∀ t, s = some t → t.NamesBindable := by
  have hloop : ∀ parts t, some (Stmt.other parts) = some t → t.NamesBindable := by
    rintro parts t ⟨⟩
    trivial
  refine .andThen fun _ => .ite ?_ (.andThen fun _ => .ite ?_ ?_)
  · exact .andThen fun _ => .andThen fun _ => .andThen fun _ => .pure (hloop _)
  · exact .andThen fun _ => .andThen fun _ => .andThen fun _ => .pure (hloop _)
  · exact .pure fun t ht => absurd ht.symm (Option.some_ne_none t)

theorem yields_forFromExpression : Yields (forFromExpression self) Stmt.NamesBindable := by
  refine .andThen fun e => .andThen fun _ => .andThen fun _ => .ite ?_ (yields_forTail self _)
  cases asPattern? e with
  | none => exact .failure
  | some target =>
    refine (yields_forElements self _).bind fun s hs => ?_
    cases s with
    | none => exact .failure
    | some s => exact .pure (hs s rfl)

theorem yields_forStatement : Yields (forStatement self) Stmt.NamesBindable := by
  refine .andThen fun _ => .andThen fun _ => ?_
  extract_lets rest
  have hrest : ∀ a, Yields (rest a) Stmt.NamesBindable := by
    refine fun _ => .andThen fun _ => .andThen fun _ => .ite (yields_forTail self _) ?_
    refine .andThen fun kind => ?_
    match kind with
    | none => exact yields_forFromExpression self
    | some (kind, allowsIn) =>
      refine .andThen fun binders => (yields_forElements self _).bind fun s hs => ?_
      cases s with
      | none => exact yields_forTail self _
      | some s => exact .pure (hs s rfl)
  exact .ite (.andThen fun _ => .andThen hrest) (hrest ())

theorem yields_jumpStatement : Yields jumpStatement Stmt.NamesBindable := by
  refine .andThen fun _ => .andThen fun _ => ?_
  extract_lets rest
  have hrest : ∀ a, Yields (rest a) Stmt.NamesBindable := fun _ => .andThen fun _ => .pure trivial
  exact .ite (.andThen fun _ => .andThen fun _ => .ite (.andThen hrest) (hrest ())) (hrest ())

theorem yields_returnStatement : Yields (returnStatement self) Stmt.NamesBindable := by
  refine .andThen fun _ => .andThen fun _ => .ite ?_ ?_
  · exact .andThen fun _ => .pure trivial
  · exact .andThen fun _ => .andThen fun _ => .pure trivial

theorem yields_throwStatement : Yields (throwStatement self) Stmt.NamesBindable :=
  .andThen fun _ => .andThen fun _ => .andThen fun _ => .andThen fun _ => .andThen fun _ =>
    .pure trivial

theorem yields_switchStatement : Yields (switchStatement self) Stmt.NamesBindable :=
  .andThen fun _ => .andThen fun _ => .andThen fun _ => .andThen fun _ => .andThen fun _ =>
    .pure trivial

theorem yields_tryStatement : Yields (tryStatement self) Stmt.NamesBindable := by
  refine .andThen fun _ => .andThen fun _ => .andThen fun _ => .andThen fun _ => ?_
  refine .andThen fun _ => .andThen fun _ => .andThen fun _ => ?_
  extract_lets rest
  have hrest : ∀ last, Yields (rest last) Stmt.NamesBindable := fun _ => .pure trivial
  exact .ite (.andThen hrest) (.andThen hrest)

theorem yields_expressionStatement : Yields (expressionStatement self) Stmt.NamesBindable := by
  refine .andThen fun e => ?_
  cases e with
  | identifier name =>
    refine .andThen fun _ => .ite ?_ ?_
    · exact .andThen fun _ => .pure trivial
    · exact .andThen fun _ => .pure trivial
  | _ => exact .andThen fun _ => .pure trivial

/-! ### Declarations -/

theorem yields_functionDeclaration (mustBeNamed isAsync : Bool) :
    Yields (functionDeclaration self mustBeNamed isAsync) Stmt.NamesBindable := by
  refine .andThen fun _ => .andThen fun _ => ?_
  extract_lets rest
  have hrest : ∀ a, Yields (rest a) Stmt.NamesBindable := fun _ => .pure trivial
  exact .ite (.andThen hrest) (hrest ())

theorem yields_declaredFunction (isAsync : Bool) :
    Yields (declaredFunction self isAsync) Stmt.NamesBindable :=
  .andThen fun _ => .andThen fun _ => .andThen fun _ => .andThen fun _ => .pure trivial

theorem yields_typeAlias : Yields (typeAlias self) Stmt.NamesBindable := by
  refine .andThen fun _ => .andThen fun _ => .andThen fun _ => .andThen fun _ => ?_
  extract_lets rest
  have hrest : ∀ a, Yields (rest a) Stmt.NamesBindable := fun _ => .andThen fun _ => .pure trivial
  exact .ite (.andThen hrest) (.andThen hrest)

theorem yields_interfaceDeclaration : Yields (interfaceDeclaration self) Stmt.NamesBindable :=
  .andThen fun _ => .andThen fun _ => .andThen fun _ => .andThen fun _ => .pure trivial

theorem yields_enumDeclaration : Yields (enumDeclaration self) Stmt.NamesBindable :=
  .andThen fun _ => .andThen fun _ => .andThen fun _ => .andThen fun _ => .pure trivial

theorem yields_namespaceDeclaration : Yields (namespaceDeclaration self) Stmt.NamesBindable :=
  .andThen fun _ => .andThen fun _ => .andThen fun _ => .pure trivial

theorem yields_moduleDeclaration : Yields (moduleDeclaration self) Stmt.NamesBindable := by
  refine .andThen fun _ => .ite ?_ (yields_namespaceDeclaration self)
  refine .andThen fun _ => .andThen fun _ => .ite ?_ ?_
  · exact .andThen fun _ => .pure trivial
  · exact .andThen fun _ => .pure trivial

theorem yields_importAlias : Yields importAlias Stmt.NamesBindable := by
  refine .andThen fun _ => ?_
  extract_lets rest
  have hrest : ∀ a, Yields (rest a) Stmt.NamesBindable := fun _ => .andThen fun _ => .pure trivial
  exact .ite (.andThen fun _ => .andThen fun _ => .andThen hrest) (.andThen fun _ => hrest ())

theorem yields_importEquals : Yields importEquals Stmt.NamesBindable := by
  refine .andThen fun _ => .andThen fun _ => ?_
  extract_lets rest
  have hrest : ∀ a, Yields (rest a) Stmt.NamesBindable := fun _ =>
    .andThen fun _ => yields_importAlias
  exact .ite (.andThen fun _ => hrest ()) (hrest ())

theorem yields_wordDeclaration (start : Nat) (decorations : List Part) (w : String) :
    Yields (wordDeclaration self start decorations w) Stmt.NamesBindable := by
  refine .andThen fun _ => ?_
  split
  · exact (yields_classAfterWord self start decorations).bind fun _ hc => .pure hc
  · exact yields_interfaceDeclaration self
  · exact yields_typeAlias self
  · exact yields_enumDeclaration self
  · exact yields_namespaceDeclaration self
  · exact yields_moduleDeclaration self
  · exact .andThen fun _ => .pure trivial
  · exact yields_importEquals
  · cases variableKind? w with
    | some kind => exact yields_variableStatement self kind
    | none => exact .failure

theorem yields_declarationAfter (start : Nat) (words : List String) (decorations : List Part) :
    Yields (declarationAfter self start words decorations) Stmt.NamesBindable := by
  refine .andThen fun _ => .andThen fun _ => ?_
  extract_lets startsAsync isAsync rest
  have hrest : ∀ a, Yields (rest a) Stmt.NamesBindable := by
    refine fun _ => .andThen fun _ => .ite ?_ (.andThen fun t => ?_)
    · exact .ite (yields_declaredFunction self _) (yields_functionDeclaration self true _)
    · cases t.word? with
      | some w => exact yields_wordDeclaration self start decorations w
      | none => exact .failure
  exact .ite (.andThen hrest) (hrest ())

theorem yields_markedDeclaration : Yields (markedDeclaration self) Stmt.NamesBindable := by
  refine .andThen fun _ => .andThen fun words => .within ?_
  exact yields_declarationAfter self _ words []

theorem yields_wordStatement (alone : Bool) (t : Token) (w : String) :
    Yields (wordStatement self alone t w) Stmt.NamesBindable := by
  unfold wordStatement
  split
  · exact yields_ifStatement self
  · exact yields_doStatement self
  · exact yields_whileStatement self
  · exact yields_whileStatement self
  · exact yields_forStatement self
  · exact yields_jumpStatement
  · exact yields_jumpStatement
  · exact yields_returnStatement self
  · exact yields_throwStatement self
  · exact yields_switchStatement self
  · exact yields_tryStatement self
  · exact .andThen fun _ => .andThen fun _ => .pure trivial
  · exact yields_functionDeclaration self true false
  · exact (yields_readClass self _ _).bind fun _ hc => .pure hc
  · exact .andThen fun _ => yields_variableStatement self .var
  · exact .andThen fun _ => .andThen fun _ =>
      .ite (yields_enumDeclaration self) (yields_variableStatement self .const)
  · refine .ite (yields_letStatement self alone) (.andThen fun _ => .ite ?_ ?_)
    · exact .andThen fun _ => yields_usingStatement self
    refine .andThen fun _ => .ite ?_ (.andThen fun _ => .ite ?_ (.andThen fun _ => .ite ?_ ?_))
    · exact .andThen fun _ => .andThen fun _ => yields_usingStatement self
    · exact .andThen fun _ => yields_functionDeclaration self true true
    · exact yields_markedDeclaration self
    · exact yields_expressionStatement self

theorem yields_plainStatement (alone : Bool) :
    Yields (plainStatement self alone) Stmt.NamesBindable := by
  refine .andThen fun t => ?_
  split
  · exact .andThen fun _ => .pure trivial
  · exact .andThen fun _ => .pure trivial
  · exact yields_wordStatement self alone t _
  · exact yields_expressionStatement self

/-! ### Imports and exports -/

theorem yields_importTail (typeOnly mayGoOn : Bool) (first : Option Name) :
    Yields (importTail typeOnly mayGoOn first) Stmt.NamesBindable := by
  unfold importTail
  extract_lets rest
  have hrest : ∀ specifiers, Yields (rest specifiers) Stmt.NamesBindable := fun _ =>
    .andThen fun _ => .andThen fun _ => .andThen fun _ => .andThen fun _ => .pure trivial
  cases first with
  | none => exact .andThen hrest
  | some name =>
    refine .andThen fun _ => .ite ?_ (.andThen hrest)
    exact .andThen fun _ => .andThen fun _ => .andThen hrest

theorem yields_importAfterWord : Yields importAfterWord Stmt.NamesBindable := by
  refine .andThen fun t => ?_
  split
  · exact .andThen fun _ => .andThen fun _ => .andThen fun _ => .pure trivial
  refine .andThen fun first => ?_
  extract_lets isSource afterTypes
  have hafterTypes : ∀ isTypes, Yields (afterTypes isTypes) Stmt.NamesBindable := by
    intro isTypes
    unfold afterTypes
    extract_lets afterPhase
    have hafterPhase : ∀ isPhase, Yields (afterPhase isPhase) Stmt.NamesBindable := by
      intro isPhase
      unfold afterPhase
      extract_lets rest afterFrom
      have hrest : ∀ first, Yields (rest first) Stmt.NamesBindable := fun _ =>
        .andThen fun _ => .ite (.andThen fun _ => yields_importAlias) (yields_importTail _ _ _)
      have hafterFrom : ∀ a, Yields (afterFrom a) Stmt.NamesBindable := fun _ =>
        .ite (.andThen hrest) (.andThen hrest)
      exact .ite (.andThen hafterFrom) (hafterFrom ())
    cases first with
    | some name => exact .andThen hafterPhase
    | none => exact .andThen hafterPhase
  exact .ite (.andThen hafterTypes) (.andThen hafterTypes)

theorem yields_importStatement : Yields (importStatement self) Stmt.NamesBindable :=
  .andThen fun _ =>
    .ite (yields_expressionStatement self) (.andThen fun _ => yields_importAfterWord)

theorem yields_exportList : Yields exportList Stmt.NamesBindable :=
  .andThen fun _ => .andThen fun _ => .andThen fun _ => .pure trivial

theorem yields_exportStar : Yields exportStar Stmt.NamesBindable := by
  refine .andThen fun _ => ?_
  extract_lets rest
  have hrest : ∀ a, Yields (rest a) Stmt.NamesBindable := fun _ =>
    .andThen fun _ => .andThen fun _ => .andThen fun _ => .andThen fun _ => .pure trivial
  exact .ite (.andThen fun _ => .andThen hrest) (.andThen hrest)

theorem yields_exportDefault (outer : List Part) :
    Yields (exportDefault self outer) Stmt.NamesBindable := by
  refine .andThen fun _ => .andThen fun _ => .andThen fun t => ?_
  refine .andThen fun _ => .andThen fun _ => .andThen fun _ => .ite ?_ (.ite ?_ (.ite ?_ ?_))
  · exact .ite (.andThen fun _ => .andThen fun _ => .pure trivial) (.andThen fun _ => .pure trivial)
  · exact .andThen fun _ => .andThen fun _ => .pure trivial
  · exact .ite (.andThen fun _ => .andThen fun _ => .pure trivial) (.andThen fun _ => .pure trivial)
  · exact .andThen fun _ => .andThen fun _ => .pure trivial

theorem yields_exportDecorated (outer : List Part) :
    Yields (exportDecorated self outer) Stmt.NamesBindable :=
  .andThen fun _ => .andThen fun _ => .andThen fun _ => .andThen fun _ =>
    (yields_classAfterWord self _ _).bind fun _ hc => .pure hc

theorem yields_exportDeclaration (decorations : List Part) :
    Yields (exportDeclaration self decorations) Stmt.NamesBindable := by
  refine .andThen fun _ => .andThen fun words => ?_
  exact (yields_declarationAfter self _ words decorations).within.bind fun s hs => .pure hs.exported

theorem yields_exportAfterWord (decorations : List Part) :
    Yields (exportAfterWord self decorations) Stmt.NamesBindable := by
  refine .andThen fun t => ?_
  split
  · exact .andThen fun _ => yields_exportStar
  · exact yields_exportList
  · exact .andThen fun _ => .andThen fun _ => .andThen fun _ => .pure trivial
  · exact yields_exportDecorated self decorations
  · refine .andThen fun _ => .ite (yields_exportDefault self decorations) ?_
    refine .andThen fun _ => .ite ?_ (.andThen fun _ => .ite ?_ (.andThen fun _ => .ite ?_ ?_))
    · exact .andThen fun _ => .andThen fun _ => .andThen fun _ => .andThen fun _ => .pure trivial
    · exact .andThen fun _ => .andThen fun _ => .ite yields_exportStar yields_exportList
    · exact yields_importEquals
    · exact yields_exportDeclaration self decorations

theorem yields_exportStatement (decorations : List Part) :
    Yields (exportStatement self decorations) Stmt.NamesBindable :=
  .andThen fun _ => .andThen fun _ =>
    .ite (yields_exportDeclaration self decorations) (yields_exportAfterWord self decorations)

theorem yields_decoratedStatement : Yields (decoratedStatement self) Stmt.NamesBindable := by
  refine .andThen fun t => .andThen fun decorations => .andThen fun _ =>
    .ite (yields_exportStatement self decorations) (.andThen fun _ => ?_)
  exact (yields_readClass self _ decorations).bind fun _ hc => .pure hc

/-- **Every class that a statement declares is named by a word that may be bound.** -/
theorem yields_statement (alone : Bool) : Yields (statement self alone) Stmt.NamesBindable :=
  .andThen fun _ => .ite (yields_importStatement self) <|
    .ite (yields_exportStatement self []) <|
      .ite (yields_decoratedStatement self) (yields_plainStatement self alone)

theorem yields_statements (depth : Nat) :
    Yields (statements (rules depth)) fun ss => ∀ s ∈ ss, s.NamesBindable := by
  refine .many (.andThen fun t => ?_)
  split
  · exact .pure fun s hs => by cases hs
  · have hrule : Yields (rules depth (.statement false)) Stmt.NamesBindable := by
      cases depth with
      | zero => exact .failure
      | succ depth => exact yields_statement (rules depth) false
    refine hrule.bind fun s hs => .pure ?_
    rintro u ⟨⟩
    exact hs

end Grammar

/-- Every class that a script declares is named by a word that may be bound. -/
theorem namesBindable_of_mem_statementsOf {ambient : Bool} {text : String} {s : Stmt}
    (h : s ∈ statementsOf ambient text) : s.NamesBindable := by
  unfold statementsOf at h
  cases hread : Grammar.readScript? ambient text with
  | none =>
    rw [hread] at h
    exact absurd h List.not_mem_nil
  | some ss =>
    rw [hread] at h
    obtain ⟨⟨ss', cursor⟩, hrun, rfl⟩ := Option.map_eq_some_iff.mp hread
    exact Grammar.yields_statements _ _ _ ss' cursor hrun s h

end PropCheck.Script
