import PropCheck.Proofs.DeclaredNames

/-!
# The index of declarations is complete and only grows

Visiting a piece of a script puts the names that it declares at the end of the index and leaves what
is there as it is.  So the index lists every name that the script declares, whatever the types of
the names may be; and a name that is found while the script is visited has its type for good, since
the first declaration of a name counts and a later one does not come before it.

* `Adds`: some names are put at the end of an index.
* `adds_bindPattern`, `adds_declare`, `adds_visit`: a pattern, a piece and a list of pieces add
  their own names.
* `PatternInfers`, `BinderInfers`, `VisitInfers`: the moments of a visit at which the type of an
  expression is inferred from what is declared so far.
* `VisitInfers.isPrefix`: what is declared at such a moment is the beginning of the finished index.
* `index_complete_and_append_only`: these together.
-/

namespace PropCheck.Script

variable {table : TypeTable}

/-! ### Adding names -/

/-- The second index is the first with declarations of some names at its end. -/
def Adds (names : List Name) (declared result : List Declaration) : Prop :=
  ∃ added : List Declaration, result = declared ++ added ∧ added.map (·.name) = names

namespace Adds

theorem nothing (declared : List Declaration) : Adds [] declared declared :=
  ⟨[], (List.append_nil declared).symm, rfl⟩

theorem one (declared : List Declaration) (d : Declaration) :
    Adds [d.name] declared (declared ++ [d]) :=
  ⟨[d], rfl, rfl⟩

theorem trans {names others : List Name} {first second third : List Declaration}
    (h : Adds names first second) (h' : Adds others second third) :
    Adds (names ++ others) first third := by
  obtain ⟨added, rfl, rfl⟩ := h
  obtain ⟨more, rfl, rfl⟩ := h'
  exact ⟨added ++ more, List.append_assoc .., List.map_append⟩

theorem isPrefix {names : List Name} {declared result : List Declaration}
    (h : Adds names declared result) : declared <+: result := by
  obtain ⟨added, rfl, -⟩ := h
  exact List.prefix_append declared added

/-- What every step of a fold adds, the fold adds one after the other. -/
theorem foldl {α : Type} {names : α → List Name}
    {step : List Declaration → α → List Declaration}
    (h : ∀ declared x, Adds (names x) declared (step declared x)) (xs : List α)
    (declared : List Declaration) : Adds (xs.flatMap names) declared (xs.foldl step declared) := by
  induction xs generalizing declared with
  | nil => exact nothing declared
  | cons x xs ih => exact (h declared x).trans (ih (step declared x))

end Adds

section Patterns

variable {kind : DeclarationKind}

mutual

/-- **A pattern adds the names that it binds**, whatever type it takes apart. -/
theorem adds_bindPattern (pattern : Pattern) (type : Ty) (declared : List Declaration) :
    Adds pattern.names declared (bindPattern table kind pattern type declared) := by
  match pattern with
  | .hole =>
    rw [bindPattern, Pattern.names]
    exact .nothing declared
  | .name name =>
    rw [bindPattern, Pattern.names]
    exact .one declared ⟨name, kind, type⟩
  | .property key p =>
    rw [bindPattern, Pattern.names]
    exact adds_bindPattern p _ declared
  | .object ps rest =>
    rw [bindPattern, Pattern.names]
    exact (adds_bindProperties ps type declared).trans (adds_bindPattern rest _ _)
  | .array ps rest =>
    rw [bindPattern, Pattern.names]
    exact (adds_bindElements ps 0 type declared).trans (adds_bindPattern rest _ _)
  | .default p value =>
    unfold bindPattern
    rw [Pattern.names]
    exact adds_bindPattern p _ declared
termination_by sizeOf pattern

theorem adds_bindProperties (patterns : List Pattern) (type : Ty) (declared : List Declaration) :
    Adds (Pattern.allNames patterns) declared
      (bindProperties table kind patterns type declared) := by
  match patterns with
  | [] =>
    rw [bindProperties, Pattern.allNames]
    exact .nothing declared
  | p :: ps =>
    rw [bindProperties, Pattern.allNames]
    exact (adds_bindPattern p type declared).trans (adds_bindProperties ps type _)
termination_by sizeOf patterns

theorem adds_bindElements (patterns : List Pattern) (index : Nat) (type : Ty)
    (declared : List Declaration) :
    Adds (Pattern.allNames patterns) declared
      (bindElements table kind patterns index type declared) := by
  match patterns with
  | [] =>
    rw [bindElements, Pattern.allNames]
    exact .nothing declared
  | p :: ps =>
    rw [bindElements, Pattern.allNames]
    exact (adds_bindPattern p _ declared).trans (adds_bindElements ps (index + 1) type _)
termination_by sizeOf patterns

end

end Patterns

theorem adds_bind (kind : VariableKind) (declared : List Declaration) (binder : Binder) :
    Adds binder.names declared (bind table kind declared binder) := by
  obtain ⟨decorators, pattern, type, optional, value⟩ := binder
  exact adds_bindPattern pattern _ declared

/-- **A piece adds the names that it declares by itself.** -/
theorem adds_declare (declared : List Declaration) (part : Part) :
    Adds part.declares declared (declare table declared part) := by
  cases part with
  | stmt statement =>
    cases statement with
    | variableDecl kind binders => exact Adds.foldl (adds_bind kind) binders declared
    | function name f =>
      cases name with
      | some name => exact .one declared _
      | none => exact .nothing declared
    | _ => exact .nothing declared
  | _ => exact .nothing declared

/-- Pieces that are visited one after the other add their names one after the other. -/
theorem adds_visit (parts : List Part) (declared : List Declaration) :
    Adds (parts.flatMap Part.declares) declared (parts.foldl (declare table) declared) :=
  Adds.foldl adds_declare parts declared

/-! ### The moments of inference -/

section Moments

variable {kind : DeclarationKind} {value : Expr} {seen declared : List Declaration} {type : Ty}

/-- The type that a pattern with a default takes apart: if nothing is known of what it is given,
that of the default. -/
def ownType (table : TypeTable) (declared : List Declaration) (type : Ty) (value : Expr) : Ty :=
  if type matches .any then (table.infer (lookup declared) value).widened else type

/-- While a pattern takes a type apart, the type of the value is inferred, and what is declared by
then is what is seen.  There is one rule for a default that is needed, and one for each way from a
pattern into a part of it, with the names bound that stand before the part. -/
inductive PatternInfers (table : TypeTable) (kind : DeclarationKind) (value : Expr)
    (seen : List Declaration) : Pattern → Ty → List Declaration → Prop where
  | here (p : Pattern) : PatternInfers table kind value seen (.default p value) .any seen
  | default {p : Pattern} {other : Expr} {type : Ty} {declared : List Declaration} :
    PatternInfers table kind value seen p (ownType table declared type other) declared →
      PatternInfers table kind value seen (.default p other) type declared
  | property {key : Key} {p : Pattern} {type : Ty} {declared : List Declaration} :
    PatternInfers table kind value seen p (keyType key type) declared →
      PatternInfers table kind value seen (.property key p) type declared
  | inObject {before after : List Pattern} {p rest : Pattern} {type : Ty}
      {declared : List Declaration} :
    PatternInfers table kind value seen p type (bindProperties table kind before type declared) →
      PatternInfers table kind value seen (.object (before ++ p :: after) rest) type declared
  | objectRest {ps : List Pattern} {rest : Pattern} {type : Ty} {declared : List Declaration} :
    PatternInfers table kind value seen rest .any (bindProperties table kind ps type declared) →
      PatternInfers table kind value seen (.object ps rest) type declared
  | inArray {before after : List Pattern} {p rest : Pattern} {type : Ty}
      {declared : List Declaration} :
    PatternInfers table kind value seen p ((type.element? before.length).getD .any)
        (bindElements table kind before 0 type declared) →
      PatternInfers table kind value seen (.array (before ++ p :: after) rest) type declared
  | arrayRest {ps : List Pattern} {rest : Pattern} {type : Ty} {declared : List Declaration} :
    PatternInfers table kind value seen rest (restType type)
        (bindElements table kind ps 0 type declared) →
      PatternInfers table kind value seen (.array ps rest) type declared

theorem bindProperties_append (before after : List Pattern) (type : Ty)
    (declared : List Declaration) :
    bindProperties table kind (before ++ after) type declared
      = bindProperties table kind after type (bindProperties table kind before type declared) := by
  induction before generalizing declared with
  | nil => rw [List.nil_append, bindProperties]
  | cons p ps ih => rw [List.cons_append, bindProperties, bindProperties, ih]

theorem bindElements_append (before after : List Pattern) (index : Nat) (type : Ty)
    (declared : List Declaration) :
    bindElements table kind (before ++ after) index type declared
      = bindElements table kind after (index + before.length) type
        (bindElements table kind before index type declared) := by
  induction before generalizing index declared with
  | nil => rw [List.nil_append, bindElements, List.length_nil, Nat.add_zero]
  | cons p ps ih =>
    rw [List.cons_append, bindElements, bindElements, ih, List.length_cons, Nat.add_right_comm,
      Nat.add_assoc]

/-- What is seen while a pattern is bound is kept until it is bound. -/
theorem PatternInfers.isPrefix {p : Pattern}
    (h : PatternInfers table kind value seen p type declared) :
    seen <+: bindPattern table kind p type declared := by
  induction h with
  | here p => exact (adds_bindPattern _ _ _).isPrefix
  | default _ ih =>
    unfold bindPattern
    exact ih
  | property _ ih =>
    rw [bindPattern]
    exact ih
  | inObject _ ih =>
    rw [bindPattern, bindProperties_append, bindProperties]
    exact ih.trans
      ((adds_bindProperties _ _ _).isPrefix.trans (adds_bindPattern _ _ _).isPrefix)
  | objectRest _ ih =>
    rw [bindPattern]
    exact ih
  | inArray _ ih =>
    rw [bindPattern, bindElements_append, bindElements, Nat.zero_add]
    exact ih.trans
      ((adds_bindElements _ _ _ _).isPrefix.trans (adds_bindPattern _ _ _).isPrefix)
  | arrayRest _ ih =>
    rw [bindPattern]
    exact ih

/-- While a binding of a variable declaration is declared, the type of the value is inferred, and
what is declared by then is what is seen. -/
inductive BinderInfers (table : TypeTable) (kind : VariableKind) (value : Expr)
    (seen : List Declaration) : Binder → List Declaration → Prop where
  | value (decorators : List Part) (pattern : Pattern) (optional : Bool) :
    BinderInfers table kind value seen (.mk decorators pattern .missing optional value) seen
  | pattern {decorators : List Part} {pattern : Pattern} {type : TypeExpr} {optional : Bool}
      {other : Expr} {declared : List Declaration} :
    PatternInfers table kind.declarationKind value seen pattern
        (binderType table kind declared type other) declared →
      BinderInfers table kind value seen (.mk decorators pattern type optional other) declared

theorem BinderInfers.isPrefix {kind : VariableKind} {binder : Binder}
    (h : BinderInfers table kind value seen binder declared) :
    seen <+: bind table kind declared binder := by
  cases h with
  | value => exact (adds_bind kind _ _).isPrefix
  | pattern h => exact h.isPrefix

/-- While some pieces are visited, the type of the value is inferred, and what is declared by then
is what is seen.  Of the pieces only variable declarations infer types, binding by binding. -/
inductive VisitInfers (table : TypeTable) (value : Expr) (seen : List Declaration) :
    List Part → Prop where
  | binding {before after : List Part} {kind : VariableKind} {earlier later : List Binder}
      {binder : Binder} :
    BinderInfers table kind value seen binder
        (earlier.foldl (bind table kind) (before.foldl (declare table) [])) →
      VisitInfers table value seen
        (before ++ .stmt (.variableDecl kind (earlier ++ binder :: later)) :: after)

/-- **What is seen at any moment of a visit is the beginning of the finished index.** -/
theorem VisitInfers.isPrefix {parts : List Part} (h : VisitInfers table value seen parts) :
    seen <+: parts.foldl (declare table) [] := by
  obtain @⟨before, after, kind, earlier, later, binder, h⟩ := h
  have hlater : ∀ index, index <+: later.foldl (bind table kind) index := fun index =>
    (Adds.foldl (adds_bind kind) later index).isPrefix
  have hafter : ∀ index, index <+: after.foldl (declare table) index := fun index =>
    (adds_visit after index).isPrefix
  rw [List.foldl_append, List.foldl_cons]
  refine List.IsPrefix.trans ?_ (hafter _)
  rw [declare, List.foldl_append, List.foldl_cons]
  exact h.isPrefix.trans (hlater _)

/-- A name that is found has its type for good. -/
theorem lookup_of_isPrefix {name : String} (h : seen <+: declared)
    (hfound : lookup seen name = some type) : lookup declared name = some type := by
  obtain ⟨added, rfl⟩ := h
  obtain ⟨d, hd, rfl⟩ := Option.map_eq_some_iff.mp hfound
  rw [lookup, List.find?_append, hd]
  rfl

end Moments

/-! ### The index of a script -/

theorem names_visit (table : TypeTable) (parts : List Part) :
    (parts.foldl (declare table) []).map (·.name) = parts.flatMap Part.declares := by
  obtain ⟨added, hadded, hnames⟩ : Adds _ [] (parts.foldl (declare table) []) := adds_visit parts []
  rw [hadded, List.nil_append, hnames]

theorem flatMap_declares_piecesOf (statements : List Stmt) :
    (piecesOf statements).flatMap Part.declares
      = statements.flatMap fun s => (Part.stmt s).visitedNames :=
  List.flatMap_assoc

/-- **The index of declarations is complete and only grows.**  It lists the names that the script
declares in the order of the text, up to order and each as often as it stands there.  Whatever types
the names are given, each piece that is visited adds its names together, and those of a variable
declaration at any depth stand together from left to right.  Visiting a part of a script only puts
declarations at the end; so a name that is found at any moment of inference has the type that it has
in the finished index. -/
theorem index_complete_and_append_only (file : String) (statements : List Stmt) :
    let scope := Scope.ofStatements file statements
    (scope.declarations.map (·.name)).Perm
        (statements.flatMap fun s => (Part.stmt s).declaredNames) ∧
      (∀ table : TypeTable, ((piecesOf statements).foldl (declare table) []).map (·.name)
        = (piecesOf statements).flatMap Part.declares) ∧
      (∀ s ∈ statements, ∀ kind binders,
        (Part.stmt (.variableDecl kind binders)).Within (.stmt s) →
          binders.flatMap Binder.names <:+: scope.declarations.map (·.name) ∧
            (binders.flatMap Binder.names).Sublist
              (Part.stmt (.variableDecl kind binders)).declaredNames) ∧
      (∀ (table : TypeTable) (part : Part) (declared : List Declaration),
        declared <+: part.pieces.foldl (declare table) declared) ∧
      (∀ value seen,
        VisitInfers (TypeTable.ofStatements statements) value seen (piecesOf statements) →
          ∀ name type, lookup seen name = some type →
            (scope.find? name).map (·.type) = some type) := by
  intro scope
  have hnames : scope.declarations.map (·.name) = (piecesOf statements).flatMap Part.declares :=
    names_visit (TypeTable.ofStatements statements) (piecesOf statements)
  refine ⟨?_, fun table => names_visit table _, fun s hs kind binders hwithin => ⟨?_, ?_⟩,
    fun table part declared => (adds_visit part.pieces declared).isPrefix,
    fun value seen hmoment name type hfound => ?_⟩
  · rw [hnames, flatMap_declares_piecesOf]
    exact (List.Perm.flatMap_left statements fun s _ => (Part.stmt s).declaredNames_perm).symm
  · have hmem : Part.stmt (.variableDecl kind binders) ∈ piecesOf statements :=
      List.mem_flatMap_of_mem hs (Part.mem_pieces_of_within hwithin)
    obtain ⟨before, after, hpieces⟩ := List.append_of_mem hmem
    rw [hnames, hpieces, List.flatMap_append, List.flatMap_cons]
    exact ⟨before.flatMap Part.declares, after.flatMap Part.declares, List.append_assoc ..⟩
  · exact (Part.stmt (.variableDecl kind binders)).declares_sublist
  · exact lookup_of_isPrefix hmoment.isPrefix hfound

/-- After a text `a`, one statement takes a list apart, whose element `b` has the default `a` and
whose value is a function with a variable `c` of its own, and declares `d`.  The names of the
statement stand together, so that `d` comes before `c`; and where the default is needed `a` is
found, with the type that it has in the finished index. -/
theorem index_complete_and_append_only_default :
    let name (text : String) (start : Nat) : Name := ⟨text, start, start + 1⟩
    let text : Stmt :=
      .variableDecl .const [.mk [] (.name (name "a" 6)) .missing false (.string "x")]
    let inner : Stmt := .variableDecl .var [.mk [] (.name (name "c" 34)) .missing false .missing]
    let first : Binder := .mk [] (.array [.default (.name (name "b" 18)) (.identifier "a")] .hole)
      .missing false (.function (.mk [] [] [] .missing [inner]))
    let second : Binder := .mk [] (.name (name "d" 40)) .missing false .null
    let statements := [text, .variableDecl .lex [first, second]]
    let scope := Scope.ofStatements "App.svelte.ts" statements
    scope.declarations.map (·.name) = [name "a" 6, name "b" 18, name "d" 40, name "c" 34] ∧
      (scope.declarations.map (·.name)).Perm
        [name "a" 6, name "b" 18, name "c" 34, name "d" 40] ∧
      [name "b" 18, name "d" 40] <:+: scope.declarations.map (·.name) ∧
      (scope.find? "a").map (·.type) = some (.string "x") := by
  intro name text inner first second statements scope
  obtain ⟨hperm, horder, htogether, -, hlookup⟩ :=
    index_complete_and_append_only "App.svelte.ts" statements
  have hpieces : piecesOf statements = (Part.stmt text).pieces
      ++ .stmt (.variableDecl .lex ([] ++ first :: [second]))
        :: ((Part.binder first).pieces ++ (Part.binder second).pieces) := by
    simp [piecesOf, statements, Part.pieces_eq (.stmt (.variableDecl .lex [first, second])),
      Part.children, Stmt.children]
  have hseen : (Part.stmt text).pieces.foldl (declare (TypeTable.ofStatements statements)) []
      = [⟨name "a" 6, .const, .string "x"⟩] := by
    simp [text, Part.pieces_eq, Part.children, Stmt.children, Binder.children, Pattern.children,
      TypeExpr.children, Expr.children, declare, bind, bindPattern, binderType, TypeTable.infer,
      VariableKind.declarationKind]
  have htext : (statements.flatMap fun s => (Part.stmt s).declaredNames)
      = [name "a" 6, name "b" 18, name "c" 34, name "d" 40] := by
    simp [statements, text, first, second, inner, Part.declaredNames_variableDecl,
      Part.declaredNames_eq_flatMap, Binder.declaredNames, Pattern.declaredNames, Part.children,
      TypeExpr.children, Expr.children, Function.children]
  have hmoment : VisitInfers (TypeTable.ofStatements statements) (.identifier "a")
      [⟨name "a" 6, .const, .string "x"⟩] (piecesOf statements) := by
    have hany : ((binderType (TypeTable.ofStatements statements) .lex
        [⟨name "a" 6, .const, .string "x"⟩] .missing
        (.function (.mk [] [] [] .missing [inner]))).element? 0).getD .any = .any := by
      simp [binderType, TypeTable.infer, TypeTable.functionType, Ty.widened, Ty.element?]
    rw [hpieces]
    apply VisitInfers.binding
    rw [hseen]
    apply BinderInfers.pattern
    show PatternInfers _ _ _ _
      (.array ([] ++ .default (.name (name "b" 18)) (.identifier "a") :: []) .hole) _ _
    apply PatternInfers.inArray
    rw [bindElements, List.length_nil, List.foldl_nil, hany]
    exact .here _
  refine ⟨?_, htext ▸ hperm, ?_, ?_⟩
  · refine (horder (TypeTable.ofStatements statements)).trans ?_
    simp [hpieces, text, first, second, inner, Part.pieces_eq, Part.children, Stmt.children,
      Binder.children, Pattern.children, TypeExpr.children, Expr.children, Function.children,
      Part.declares, Binder.names, Pattern.names, Pattern.allNames]
  · exact (htogether _ (by simp [statements]) .lex [first, second] .refl).1
  · exact hlookup (.identifier "a") _ hmoment "a" (.string "x") (by simp [lookup, name])

end PropCheck.Script
