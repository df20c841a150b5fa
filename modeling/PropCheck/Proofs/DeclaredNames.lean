import Mathlib.Data.List.Perm.Basic
import Mathlib.Logic.Relation
import PropCheck.Script.Scope

/-!
# The names that a script declares

A script is visited piece by piece, and a variable declaration adds all names of its patterns before
what is inside the patterns, the types and the values is visited, although that is a second way down
into the same patterns.  Here the names are listed once more in the order in which they stand in the
text, by a single way down, and the two lists are found to be the same up to order.

* `Pattern.names`, `Part.declares`: the names that a pattern binds and that a piece declares by
  itself, from left to right.
* `Part.declaredNames`: the names that are declared inside a piece, as they stand in the text.
* `Part.visitedNames`: the same names as they are visited.
* `Part.declaredNames_perm`: no name is left out or visited twice.
* `Part.Within`, `Part.mem_pieces_of_within`: whatever is inside a piece at any depth is visited.
-/

namespace PropCheck.Script

/-! ### Names of patterns -/

mutual

/-- The names that a pattern binds, from left to right. -/
def Pattern.names : Pattern → List Name
  | .hole => []
  | .name n => [n]
  | .property _ p => p.names
  | .object ps rest | .array ps rest => Pattern.allNames ps ++ rest.names
  | .default p _ => p.names

/-- The names that some patterns bind, from left to right. -/
def Pattern.allNames : List Pattern → List Name
  | [] => []
  | p :: ps => p.names ++ Pattern.allNames ps

end

/-- The names of one binding of a variable declaration. -/
def Binder.names : Binder → List Name
  | .mk _ pattern _ _ _ => pattern.names

namespace Part

/-- The names that a piece declares by itself: those of the patterns of a variable declaration, or
that of a function. -/
def declares : Part → List Name
  | stmt (.variableDecl _ binders) => binders.flatMap Binder.names
  | stmt (.function (some name) _) => [name]
  | _ => []

end Part

/-! ### Names in the order of the text -/

mutual

/-- The names that are declared inside a piece, in the order in which they stand in the text. -/
def Part.declaredNames (p : Part) : List Name :=
  match p with
  | .stmt (.variableDecl _ binders) => binders.attach.flatMap fun ⟨b, _⟩ => b.declaredNames
  | .stmt (.function (some name) f) => name :: (Part.function f).declaredNames
  | p => p.children.attach.flatMap fun ⟨c, _⟩ => c.declaredNames
termination_by sizeOf p
decreasing_by
  · exact Part.sizeOf_lt_of_mem_children (List.mem_map_of_mem ‹_›)
  · exact Part.sizeOf_lt_of_mem_children (List.mem_singleton_self _)
  · exact Part.sizeOf_lt_of_mem_children ‹_›

/-- The names of a binding of a variable declaration and those that are declared inside it. -/
def Binder.declaredNames (b : Binder) : List Name :=
  match b with
  | .mk decorators pattern type _ value =>
    decorators.attach.flatMap (fun ⟨d, _⟩ => d.declaredNames)
      ++ (pattern.declaredNames ++ ((Part.type type).declaredNames
        ++ (Part.expr value).declaredNames))
termination_by sizeOf (Part.binder b)

/-- The names that a pattern binds and those that are declared inside it. -/
def Pattern.declaredNames (p : Pattern) : List Name :=
  match p with
  | .hole => []
  | .name n => [n]
  | .property key p => (Part.key key).declaredNames ++ p.declaredNames
  | .object ps rest | .array ps rest =>
    ps.attach.flatMap (fun ⟨p, _⟩ => p.declaredNames) ++ rest.declaredNames
  | .default p value => p.declaredNames ++ (Part.expr value).declaredNames
termination_by sizeOf (Part.pattern p)

end

namespace Part

theorem declaredNames_variableDecl (kind : VariableKind) (binders : List Binder) :
    (stmt (.variableDecl kind binders)).declaredNames
      = binders.flatMap Binder.declaredNames := by
  rw [declaredNames]
  simp

theorem declaredNames_eq_flatMap {p : Part}
    (hvariable : ∀ kind binders, p ≠ stmt (.variableDecl kind binders))
    (hfunction : ∀ name f, p ≠ stmt (.function (some name) f)) :
    p.declaredNames = p.children.flatMap declaredNames := by
  rw [declaredNames]
  · simp
  · exact hvariable
  · exact hfunction

/-! ### Names in the order of the visit -/

theorem pieces_eq (p : Part) : p.pieces = p :: p.children.flatMap pieces := by
  rw [pieces]
  simp

/-- The names that are declared inside a piece, in the order in which it is visited. -/
def visitedNames (p : Part) : List Name :=
  p.pieces.flatMap declares

theorem visitedNames_eq (p : Part) :
    p.visitedNames = p.declares ++ p.children.flatMap visitedNames := by
  rw [visitedNames, pieces_eq, List.flatMap_cons, List.flatMap_assoc]
  rfl

theorem visitedNames_pattern (p : Pattern) :
    (pattern p).visitedNames = p.children.flatMap visitedNames :=
  visitedNames_eq (pattern p)

theorem visitedNames_binder (b : Binder) :
    (binder b).visitedNames = b.children.flatMap visitedNames :=
  visitedNames_eq (binder b)

end Part

/-! ### The two orders -/

section Orders

variable {α β : Type}

/-- Two lists that each have one part in front and one behind have their parts in front and behind
together. -/
theorem append_perm_append {as bs as₁ as₂ bs₁ bs₂ : List α} (ha : as.Perm (as₁ ++ as₂))
    (hb : bs.Perm (bs₁ ++ bs₂)) : (as ++ bs).Perm ((as₁ ++ bs₁) ++ (as₂ ++ bs₂)) := by
  have hmiddle : (as₂ ++ (bs₁ ++ bs₂)).Perm (bs₁ ++ (as₂ ++ bs₂)) := by
    rw [← List.append_assoc, ← List.append_assoc]
    exact List.perm_append_comm.append_right bs₂
  calc (as ++ bs).Perm ((as₁ ++ as₂) ++ (bs₁ ++ bs₂)) := ha.append hb
    _ = as₁ ++ (as₂ ++ (bs₁ ++ bs₂)) := List.append_assoc ..
    List.Perm _ (as₁ ++ (bs₁ ++ (as₂ ++ bs₂))) := hmiddle.append_left as₁
    _ = (as₁ ++ bs₁) ++ (as₂ ++ bs₂) := (List.append_assoc ..).symm

theorem flatMap_perm_append {xs : List β} {f g h : β → List α}
    (hf : ∀ x ∈ xs, (f x).Perm (g x ++ h x)) : (xs.flatMap f).Perm (xs.flatMap g ++ xs.flatMap h) :=
  (List.Perm.flatMap_left xs hf).trans (List.flatMap_append_perm xs g h).symm

end Orders

theorem Pattern.allNames_eq_flatMap (ps : List Pattern) : allNames ps = ps.flatMap names := by
  induction ps with
  | nil => rfl
  | cons p ps ih => rw [allNames, ih, List.flatMap_cons]

/-- In all pieces below a size, the names are visited as they stand in the text, up to order. -/
def VisitedBelow (n : Nat) : Prop :=
  ∀ p : Part, sizeOf p < n → p.declaredNames.Perm p.visitedNames

namespace VisitedBelow

variable {n : Nat}

/-- The names of a pattern are bound first, and what is inside the pattern is visited later. -/
theorem pattern (hn : VisitedBelow n) (p : Pattern) (hp : sizeOf (Part.pattern p) ≤ n) :
    p.declaredNames.Perm (p.names ++ (Part.pattern p).visitedNames) := by
  have hchild : ∀ c ∈ (Part.pattern p).children, sizeOf c < n := fun c hc =>
    Nat.lt_of_lt_of_le (Part.sizeOf_lt_of_mem_children hc) hp
  match p with
  | .hole | .name _ =>
    rw [Pattern.declaredNames, Pattern.names, Part.visitedNames_pattern]
    rfl
  | .property key p =>
    have hkey : (Part.key key).declaredNames.Perm ([] ++ (Part.key key).visitedNames) :=
      hn (.key key) (hchild _ (by simp [Part.children, Pattern.children]))
    have hvalue := hn.pattern p (Nat.le_of_lt
      (hchild (.pattern p) (by simp [Part.children, Pattern.children])))
    rw [Pattern.declaredNames, Pattern.names, Part.visitedNames_pattern]
    simpa [Pattern.children] using append_perm_append hkey hvalue
  | .object ps rest | .array ps rest =>
    have hparts : ∀ p ∈ ps, p.declaredNames.Perm (p.names ++ (Part.pattern p).visitedNames) :=
      fun p hp => hn.pattern p (Nat.le_of_lt
        (hchild (.pattern p) (by simp [Part.children, Pattern.children, hp])))
    have hrest := hn.pattern rest (Nat.le_of_lt
      (hchild (.pattern rest) (by simp [Part.children, Pattern.children])))
    rw [Pattern.declaredNames, Pattern.names, Part.visitedNames_pattern,
      Pattern.allNames_eq_flatMap]
    simpa [Pattern.children, List.flatMap_map]
      using append_perm_append (flatMap_perm_append hparts) hrest
  | .default p value =>
    have hpattern := hn.pattern p (Nat.le_of_lt
      (hchild (.pattern p) (by simp [Part.children, Pattern.children])))
    have hvalue : (Part.expr value).declaredNames.Perm ([] ++ (Part.expr value).visitedNames) :=
      hn (.expr value) (hchild _ (by simp [Part.children, Pattern.children]))
    rw [Pattern.declaredNames, Pattern.names, Part.visitedNames_pattern]
    simpa [Pattern.children] using append_perm_append hpattern hvalue
termination_by sizeOf p

/-- The names of a binding are bound first, and what is inside the binding is visited later. -/
theorem binder (hn : VisitedBelow n) (b : Binder) (hb : sizeOf (Part.binder b) ≤ n) :
    b.declaredNames.Perm (b.names ++ (Part.binder b).visitedNames) := by
  obtain ⟨decorators, pattern, type, optional, value⟩ := b
  have hinside : ∀ c ∈ (Part.binder (.mk decorators pattern type optional value)).children,
      sizeOf c < n := fun c hc => Nat.lt_of_lt_of_le (Part.sizeOf_lt_of_mem_children hc) hb
  simp only [Part.children, Binder.children, List.mem_append, List.mem_cons, List.not_mem_nil,
    or_false] at hinside
  have hdecorators : (decorators.flatMap Part.declaredNames).Perm
      ([] ++ decorators.flatMap Part.visitedNames) :=
    List.Perm.flatMap_left decorators fun d hd => hn d (hinside d (.inl hd))
  have hpattern := hn.pattern pattern (Nat.le_of_lt (hinside _ (.inr (.inl rfl))))
  have htype : (Part.type type).declaredNames.Perm ([] ++ (Part.type type).visitedNames) :=
    hn _ (hinside _ (.inr (.inr (.inl rfl))))
  have hvalue : (Part.expr value).declaredNames.Perm ([] ++ (Part.expr value).visitedNames) :=
    hn _ (hinside _ (.inr (.inr (.inr rfl))))
  rw [Binder.declaredNames, Binder.names, Part.visitedNames_binder]
  simpa [Binder.children] using append_perm_append hdecorators
    (append_perm_append hpattern (append_perm_append htype hvalue))

/-- One piece more: what holds of all pieces below a size holds of a piece of the size. -/
theorem step {p : Part} (hn : VisitedBelow (sizeOf p)) : p.declaredNames.Perm p.visitedNames := by
  have hinside : ∀ c ∈ p.children, c.declaredNames.Perm c.visitedNames := fun c hc =>
    hn c (Part.sizeOf_lt_of_mem_children hc)
  by_cases hvariable : ∃ kind binders, p = .stmt (.variableDecl kind binders)
  · obtain ⟨kind, binders, rfl⟩ := hvariable
    have hbinders : ∀ b ∈ binders,
        b.declaredNames.Perm (b.names ++ (Part.binder b).visitedNames) := fun b hb =>
      hn.binder b (Nat.le_of_lt (Part.sizeOf_lt_of_mem_children (List.mem_map_of_mem hb)))
    rw [Part.declaredNames_variableDecl, Part.visitedNames_eq]
    simpa [Part.children, Stmt.children, Part.declares, List.flatMap_map]
      using flatMap_perm_append hbinders
  by_cases hfunction : ∃ name f, p = .stmt (.function (some name) f)
  · obtain ⟨name, f, rfl⟩ := hfunction
    have hbody := hinside (.function f) (List.mem_singleton_self _)
    rw [Part.declaredNames, Part.visitedNames_eq]
    simpa [Part.children, Stmt.children, Part.declares] using hbody
  have hnone : p.declares = [] := by
    unfold Part.declares
    split
    · exact absurd ⟨_, _, rfl⟩ hvariable
    · exact absurd ⟨_, _, rfl⟩ hfunction
    · rfl
  rw [Part.visitedNames_eq, hnone, List.nil_append,
    Part.declaredNames_eq_flatMap (fun kind binders h => hvariable ⟨kind, binders, h⟩)
      (fun name f h => hfunction ⟨name, f, h⟩)]
  exact List.Perm.flatMap_left p.children hinside

end VisitedBelow

namespace Part

/-- **No name is left out, and none is visited twice.**  The names that are declared inside a piece
are visited once for each time that they stand in the text. -/
theorem declaredNames_perm (p : Part) : p.declaredNames.Perm p.visitedNames := by
  induction hn : sizeOf p using Nat.strongRecOn generalizing p with
  | ind n ih => exact VisitedBelow.step fun q hq => ih _ (hn ▸ hq) q rfl

end Part

/-! ### From left to right -/

theorem flatMap_sublist_flatMap {α β : Type} {xs : List β} {f g : β → List α}
    (h : ∀ x ∈ xs, (f x).Sublist (g x)) : (xs.flatMap f).Sublist (xs.flatMap g) := by
  induction xs with
  | nil => exact List.Sublist.refl _
  | cons x xs ih =>
    rw [List.flatMap_cons, List.flatMap_cons]
    exact (h x List.mem_cons_self).append (ih fun y hy => h y (List.mem_cons_of_mem x hy))

theorem Pattern.names_sublist (p : Pattern) : p.names.Sublist p.declaredNames := by
  match p with
  | .hole | .name _ =>
    rw [declaredNames, names]
  | .property key p =>
    rw [declaredNames, names]
    exact (names_sublist p).trans (List.sublist_append_right _ _)
  | .object ps rest | .array ps rest =>
    have hparts : ∀ p ∈ ps, p.names.Sublist p.declaredNames := fun p hp => names_sublist p
    rw [declaredNames, names, allNames_eq_flatMap]
    simpa using (flatMap_sublist_flatMap hparts).append (names_sublist rest)
  | .default p value =>
    rw [declaredNames, names]
    exact (names_sublist p).trans (List.sublist_append_left _ _)
termination_by sizeOf p

theorem Binder.names_sublist (b : Binder) : b.names.Sublist b.declaredNames := by
  obtain ⟨decorators, pattern, type, optional, value⟩ := b
  rw [declaredNames, names]
  exact pattern.names_sublist.trans
    ((List.sublist_append_left _ _).trans (List.sublist_append_right _ _))

namespace Part

/-- A piece declares its own names from left to right, as they stand in the text. -/
theorem declares_sublist (p : Part) : p.declares.Sublist p.declaredNames := by
  unfold declares
  split
  · rw [declaredNames_variableDecl]
    exact flatMap_sublist_flatMap fun b _ => b.names_sublist
  · rw [declaredNames]
    exact (List.nil_sublist _).cons_cons _
  · exact List.nil_sublist _

/-! ### Pieces at any depth -/

/-- The first piece is the second or stands inside it, at any depth. -/
def Within (q p : Part) : Prop :=
  Relation.ReflTransGen (fun p c => c ∈ p.children) p q

/-- **Whatever is inside a piece is visited.** -/
theorem mem_pieces_of_within {q p : Part} (h : q.Within p) : q ∈ p.pieces := by
  induction h using Relation.ReflTransGen.head_induction_on with
  | refl =>
    rw [pieces_eq]
    exact List.mem_cons_self
  | head hchild _ ih =>
    rw [pieces_eq]
    exact List.mem_cons_of_mem _ (List.mem_flatMap_of_mem hchild ih)

end Part

end PropCheck.Script
