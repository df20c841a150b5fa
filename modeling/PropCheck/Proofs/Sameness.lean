import PropCheck.Proofs.DepthLimit

/-!
# Types that are the same

Types that count as the same may still differ in the signs of zeros, and a union keeps only the
first of them.  The relation does not tell them apart: types without the signs are the same exactly
if the types are, and every part of one level of the relation can be done on them as well.

* `Ty.unsigned`: the type with every zero in it without a sign.
* `Ty.same_unsigned`, `Ty.unsigned_eq_of_same`: sameness becomes equality, `nan` apart.
* `Ty.unionOf_map_unsigned`: building a union and taking the signs away can change places.
* `Assign.step_unsigned`: one level over types without signs is one level over the types.
* `Assign.relates_eq_of_same`, `Assign.relates_source_eq_of_same`: targets that are the same take
  the same sources, and sources that are the same are related to the same targets.
-/

namespace PropCheck

/-! ### Zeros without a sign -/

/-- The number, with no sign if it is zero. -/
def Double.unsigned : Double → Double
  | finite _ 0 => finite false 0
  | x => x

theorem Double.ieeeEq_unsigned (a b : Double) : a.unsigned.ieeeEq b.unsigned = a.ieeeEq b := by
  rcases a with _ | s | ⟨s, _ | m⟩ <;> rcases b with _ | t | ⟨t, _ | n⟩ <;>
    simp [Double.unsigned, Double.ieeeEq]

theorem Double.unsigned_eq_of_ieeeEq {a b : Double} (h : a.ieeeEq b = true) :
    a.unsigned = b.unsigned := by
  rcases a with _ | s | ⟨s, _ | m⟩ <;> rcases b with _ | t | ⟨t, _ | n⟩ <;>
    simp_all [Double.unsigned, Double.ieeeEq]

namespace Ty

mutual

/-- The type with every zero in it without a sign. -/
def unsigned : Ty → Ty
  | keyword k => keyword k
  | string s => string s
  | number x => number x.unsigned
  | boolean b => boolean b
  | array t => array (unsigned t)
  | tuple ts => tuple (unsignedAll ts)
  | union ts => union (unsignedAll ts)
  | intersection ts => intersection (unsignedAll ts)
  | function ps r m => function (unsignedSlots ps) (unsigned r) m
  | object name ps => object name (unsignedSlots ps)
  | reference name ts => reference name (unsignedAll ts)

def unsignedAll : List Ty → List Ty
  | [] => []
  | t :: ts => unsigned t :: unsignedAll ts

def unsignedSlots : List (Slot Ty) → List (Slot Ty)
  | [] => []
  | ⟨name, t, isOptional⟩ :: ps => ⟨name, unsigned t, isOptional⟩ :: unsignedSlots ps

end

mutual

/-- Taking the signs away from the zeros does not change which types are the same. -/
theorem same_unsigned : ∀ a b : Ty, same a.unsigned b.unsigned = same a b
  | keyword _, b => by cases b <;> rfl
  | string _, b => by cases b <;> rfl
  | boolean _, b => by cases b <;> rfl
  | number x, b => by
    cases b with
    | number y => exact x.ieeeEq_unsigned y
    | _ => rfl
  | array t, b => by
    cases b with
    | array u => exact same_unsigned t u
    | _ => rfl
  | tuple ts, b => by
    cases b with
    | tuple us => exact sameAll_unsigned ts us
    | _ => rfl
  | union ts, b => by
    cases b with
    | union us => exact sameAll_unsigned ts us
    | _ => rfl
  | intersection ts, b => by
    cases b with
    | intersection us => exact sameAll_unsigned ts us
    | _ => rfl
  | function ps r m, b => by
    cases b with
    | function qs s n => simp only [unsigned, same, sameSlots_unsigned ps qs, same_unsigned r s]
    | _ => rfl
  | object name ps, b => by
    cases b with
    | object name' qs => simp only [unsigned, same, sameSlots_unsigned ps qs]
    | _ => rfl
  | reference name ts, b => by
    cases b with
    | reference name' us => simp only [unsigned, same, sameAll_unsigned ts us]
    | _ => rfl

theorem sameAll_unsigned : ∀ as bs : List Ty,
    sameAll (unsignedAll as) (unsignedAll bs) = sameAll as bs
  | [], bs => by cases bs <;> rfl
  | a :: as, bs => by
    cases bs with
    | nil => rfl
    | cons b bs => simp only [unsignedAll, sameAll, same_unsigned a b, sameAll_unsigned as bs]

theorem sameSlots_unsigned : ∀ ps qs : List (Slot Ty),
    sameSlots (unsignedSlots ps) (unsignedSlots qs) = sameSlots ps qs
  | [], qs => by cases qs <;> rfl
  | ⟨name, t, _⟩ :: ps, qs => by
    cases qs with
    | nil => rfl
    | cons q qs =>
      simp only [unsignedSlots, sameSlots, same_unsigned t q.type, sameSlots_unsigned ps qs]

end

mutual

/-- Types that are the same differ in the signs of zeros only. -/
theorem unsigned_eq_of_same : ∀ {a b : Ty}, same a b = true → a.unsigned = b.unsigned
  | keyword _, b, h => by
    cases b <;> simp_all [same]
  | string _, b, h => by cases b <;> simp_all [same]
  | boolean _, b, h => by cases b <;> simp_all [same]
  | number x, b, h => by
    cases b with
    | number y => exact congrArg number (Double.unsigned_eq_of_ieeeEq h)
    | _ => cases h
  | array t, b, h => by
    cases b with
    | array u => exact congrArg array (unsigned_eq_of_same h)
    | _ => cases h
  | tuple ts, b, h => by
    cases b with
    | tuple us => exact congrArg tuple (unsignedAll_eq_of_same h)
    | _ => cases h
  | union ts, b, h => by
    cases b with
    | union us => exact congrArg union (unsignedAll_eq_of_same h)
    | _ => cases h
  | intersection ts, b, h => by
    cases b with
    | intersection us => exact congrArg intersection (unsignedAll_eq_of_same h)
    | _ => cases h
  | function ps r m, b, h => by
    cases b with
    | function qs s n =>
      simp only [same, Bool.and_eq_true, beq_iff_eq] at h
      rw [unsigned, unsigned, unsignedSlots_eq_of_same h.1.1, unsigned_eq_of_same h.1.2, h.2]
    | _ => cases h
  | object name ps, b, h => by
    cases b with
    | object name' qs =>
      simp only [same, Bool.and_eq_true, beq_iff_eq] at h
      rw [unsigned, unsigned, unsignedSlots_eq_of_same h.2, h.1]
    | _ => cases h
  | reference name ts, b, h => by
    cases b with
    | reference name' us =>
      simp only [same, Bool.and_eq_true, beq_iff_eq] at h
      rw [unsigned, unsigned, unsignedAll_eq_of_same h.2, h.1]
    | _ => cases h

theorem unsignedAll_eq_of_same : ∀ {as bs : List Ty}, sameAll as bs = true →
    unsignedAll as = unsignedAll bs
  | [], bs, h => by
    cases bs with
    | nil => rfl
    | cons b bs => cases h
  | a :: as, bs, h => by
    cases bs with
    | nil => cases h
    | cons b bs =>
      simp only [sameAll, Bool.and_eq_true] at h
      rw [unsignedAll, unsignedAll, unsigned_eq_of_same h.1, unsignedAll_eq_of_same h.2]

theorem unsignedSlots_eq_of_same : ∀ {ps qs : List (Slot Ty)}, sameSlots ps qs = true →
    unsignedSlots ps = unsignedSlots qs
  | [], qs, h => by
    cases qs with
    | nil => rfl
    | cons q qs => cases h
  | ⟨name, t, isOptional⟩ :: ps, qs, h => by
    cases qs with
    | nil => cases h
    | cons q qs =>
      simp only [sameSlots, Bool.and_eq_true, beq_iff_eq] at h
      rw [unsignedSlots, unsignedSlots, unsigned_eq_of_same h.1.1.2, unsignedSlots_eq_of_same h.2,
        h.1.1.1, h.1.2]

end

/-! ### What is built from types -/

theorem unsignedAll_eq_map (ts : List Ty) : unsignedAll ts = ts.map unsigned := by
  induction ts with
  | nil => rfl
  | cons t ts ih => rw [unsignedAll, ih, List.map_cons]

end Ty

/-- The slot with every zero in its type without a sign. -/
def Slot.unsigned (p : Slot Ty) : Slot Ty :=
  ⟨p.name, p.type.unsigned, p.optional⟩

namespace Ty

theorem unsignedSlots_eq_map (ps : List (Slot Ty)) : unsignedSlots ps = ps.map Slot.unsigned := by
  induction ps with
  | nil => rfl
  | cons p ps ih =>
    rw [unsignedSlots, ih]
    rfl

theorem unsigned_tuple (ts : List Ty) : (tuple ts).unsigned = tuple (ts.map unsigned) := by
  rw [unsigned, unsignedAll_eq_map]

theorem unsigned_union (ts : List Ty) : (union ts).unsigned = union (ts.map unsigned) := by
  rw [unsigned, unsignedAll_eq_map]

theorem unsigned_intersection (ts : List Ty) :
    (intersection ts).unsigned = intersection (ts.map unsigned) := by
  rw [unsigned, unsignedAll_eq_map]

theorem unsigned_reference (name : String) (ts : List Ty) :
    (reference name ts).unsigned = reference name (ts.map unsigned) := by
  rw [unsigned, unsignedAll_eq_map]

theorem unsigned_function (ps : List (Slot Ty)) (r : Ty) (m : Bool) :
    (function ps r m).unsigned = function (ps.map Slot.unsigned) r.unsigned m := by
  rw [unsigned, unsignedSlots_eq_map]

theorem unsigned_object (name : Option String) (ps : List (Slot Ty)) :
    (object name ps).unsigned = object name (ps.map Slot.unsigned) := by
  rw [unsigned, unsignedSlots_eq_map]

theorem unsigned_eq_keyword_iff {t : Ty} {k : Keyword} :
    t.unsigned = keyword k ↔ t = keyword k := by
  cases t <;> simp [unsigned]

theorem unsigned_eq_boolean_iff {t : Ty} {b : Bool} : t.unsigned = boolean b ↔ t = boolean b := by
  cases t <;> simp [unsigned]

theorem unsigned_ne_keyword {t : Ty} {k : Keyword} (h : t ≠ keyword k) : t.unsigned ≠ keyword k :=
  fun heq => h (unsigned_eq_keyword_iff.mp heq)

theorem unsigned_ne_union {t : Ty} (h : ∀ ts, t ≠ union ts) (us : List Ty) :
    t.unsigned ≠ union us := by
  intro heq
  cases t with
  | union ts => exact h ts rfl
  | _ => cases heq

theorem members_unsigned (t : Ty) : t.unsigned.members = t.members.map unsigned := by
  cases t with
  | union ts => exact unsignedAll_eq_map ts
  | _ => rfl

theorem insertNew_map_unsigned (seen : List Ty) (t : Ty) :
    insertNew (seen.map unsigned) t.unsigned = (insertNew seen t).map unsigned := by
  have hany : (seen.map unsigned).any (same · t.unsigned) = seen.any (same · t) := by
    rw [List.any_map]
    congr 1
    funext u
    exact same_unsigned u t
  unfold insertNew
  rw [hany]
  split
  · rfl
  · rw [List.map_append, List.map_singleton]

theorem distinct_map_unsigned (ts : List Ty) :
    distinct (ts.map unsigned) = (distinct ts).map unsigned := by
  have hfold : ∀ seen : List Ty, (ts.map unsigned).foldl insertNew (seen.map unsigned)
      = (ts.foldl insertNew seen).map unsigned := by
    induction ts with
    | nil => intro seen; rfl
    | cons t ts ih =>
      intro seen
      rw [List.map_cons, List.foldl_cons, List.foldl_cons, insertNew_map_unsigned, ih]
  exact hfold []

theorem ofAlternatives_map_unsigned (ts : List Ty) :
    ofAlternatives (ts.map unsigned) = (ofAlternatives ts).unsigned := by
  match ts with
  | [] => rfl
  | [t] => rfl
  | t :: u :: ts =>
    show union ((t :: u :: ts).map unsigned) = (union (t :: u :: ts)).unsigned
    rw [unsigned, unsignedAll_eq_map]

theorem unionOf_map_unsigned (ts : List Ty) :
    unionOf (ts.map unsigned) = (unionOf ts).unsigned := by
  have hmembers : (ts.map unsigned).flatMap members = (ts.flatMap members).map unsigned := by
    rw [List.flatMap_map, List.map_flatMap]
    congr 1
    funext t
    exact members_unsigned t
  rw [unionOf, hmembers, distinct_map_unsigned, ofAlternatives_map_unsigned, unionOf]

theorem optional_unsigned (t : Ty) (isOptional : Bool) :
    t.unsigned.optional isOptional = (t.optional isOptional).unsigned := by
  cases isOptional with
  | false => rfl
  | true => exact unionOf_map_unsigned [t, undefined]

end Ty

theorem Slot.declared_unsigned (p : Slot Ty) : p.unsigned.declared = p.declared.unsigned :=
  p.type.optional_unsigned p.optional

theorem Slot.find?_map_unsigned (ps : List (Slot Ty)) (name : String) :
    Slot.find? (ps.map Slot.unsigned) name = (Slot.find? ps name).map Slot.unsigned :=
  List.find?_map

/-! ### One level -/

namespace Assign

theorem allOf_map {α β : Type} (ask : β → Verdict) (f : α → β) (xs : List α) :
    allOf ask (xs.map f) = allOf (fun x => ask (f x)) xs := by
  induction xs with
  | nil => rfl
  | cons x xs ih => rw [List.map_cons, allOf, allOf, ih]

theorem anyOf_map {α β : Type} (ask : β → Verdict) (f : α → β) (xs : List α) :
    anyOf ask (xs.map f) = anyOf (fun x => ask (f x)) xs := by
  induction xs with
  | nil => rfl
  | cons x xs ih => rw [List.map_cons, anyOf, anyOf, ih]

theorem foldl_addProperty_map_unsigned (ps merged : List (Slot Ty)) :
    (ps.map Slot.unsigned).foldl addProperty (merged.map Slot.unsigned)
      = (ps.foldl addProperty merged).map Slot.unsigned := by
  induction ps generalizing merged with
  | nil => rfl
  | cons p ps ih =>
    have hadd : addProperty (merged.map Slot.unsigned) p.unsigned
        = (addProperty merged p).map Slot.unsigned := by
      unfold addProperty
      rw [Slot.find?_map_unsigned, Option.isSome_map]
      show (if (Slot.find? merged p.name).isSome then _ else _) = _
      split
      · rfl
      · rw [List.map_append, List.map_singleton]
    rw [List.map_cons, List.foldl_cons, List.foldl_cons, hadd, ih]

theorem mergeProperties?_map_unsigned (ts : List Ty) (merged : List (Slot Ty)) :
    mergeProperties? (ts.map Ty.unsigned) (merged.map Slot.unsigned)
      = (mergeProperties? ts merged).map (·.map Slot.unsigned) := by
  induction ts generalizing merged with
  | nil => rfl
  | cons t ts ih =>
    cases t with
    | object name ps =>
      rw [List.map_cons, Ty.unsigned, mergeProperties?, mergeProperties?,
        Ty.unsignedSlots_eq_map, foldl_addProperty_map_unsigned, ih]
    | _ => rfl

theorem merged?_map_unsigned (ts : List Ty) :
    merged? (ts.map Ty.unsigned) = (merged? ts).map Ty.unsigned := by
  have h := mergeProperties?_map_unsigned ts []
  rw [List.map_nil] at h
  rw [merged?, merged?, h, Option.map_map, Option.map_map]
  congr 1
  funext ps
  exact congrArg (Ty.object none) (Ty.unsignedSlots_eq_map ps).symm

/-- A union covers `boolean`, and no other type, by having both of its literals. -/
theorem coversBoolean_iff {s : Ty} {ts : List Ty} :
    coversBoolean s ts = true
      ↔ s = .keyword .boolean ∧ Ty.boolean true ∈ ts ∧ Ty.boolean false ∈ ts := by
  unfold coversBoolean
  simp only [Bool.and_eq_true, List.any_eq_true, and_assoc]
  refine and_congr ⟨fun h => ?_, fun h => ?_⟩
    (and_congr ⟨fun h => ?_, fun h => ⟨_, h, rfl⟩⟩ ⟨fun h => ?_, fun h => ⟨_, h, rfl⟩⟩)
  · split at h
    · rfl
    · cases h
  · rw [h]
  all_goals
    obtain ⟨t, ht, htb⟩ := h
    split at htb
    · exact ht
    · cases htb

section Levels

variable (options : Options) (relate : Ty → Ty → Verdict)

/-- The relation of the types without the signs. -/
abbrev ignoringSigns (s t : Ty) : Verdict :=
  relate s.unsigned t.unsigned

theorem pairwise_unsigned (ss ts : List Ty) :
    pairwise relate (ss.map Ty.unsigned) (ts.map Ty.unsigned)
      = pairwise (ignoringSigns relate) ss ts := by
  rw [pairwise, pairwise, List.length_map, List.length_map, List.zip_map, allOf_map]
  rfl

theorem propertyRelated_unsigned (ps : List (Slot Ty)) (q : Slot Ty) :
    propertyRelated relate (ps.map Slot.unsigned) q.unsigned
      = propertyRelated (ignoringSigns relate) ps q := by
  have hfind : Slot.find? (ps.map Slot.unsigned) q.unsigned.name
      = (Slot.find? ps q.name).map Slot.unsigned := Slot.find?_map_unsigned ps q.name
  rw [propertyRelated, propertyRelated, hfind]
  cases Slot.find? ps q.name with
  | none => rfl
  | some p =>
    simp only [Option.map_some, Slot.declared_unsigned]
    rfl

theorem objectRelated_unsigned (source : Ty) (ps : List (Slot Ty)) :
    objectRelated relate source.unsigned (ps.map Slot.unsigned)
      = objectRelated (ignoringSigns relate) source ps := by
  cases source with
  | object name qs =>
    rw [Ty.unsigned, Ty.unsignedSlots_eq_map, objectRelated, objectRelated, allOf_map]
    congr 1
    funext p
    exact propertyRelated_unsigned relate qs p
  | _ =>
    show Except.ok _ = Except.ok _
    rw [List.all_map]
    rfl

theorem functionRelated_unsigned (ps qs : List (Slot Ty)) (r s : Ty) (m n : Bool) :
    functionRelated options relate (ps.map Slot.unsigned) r.unsigned m (qs.map Slot.unsigned)
        s.unsigned n
      = functionRelated options (ignoringSigns relate) ps r m qs s n := by
  simp only [functionRelated, List.length_map, List.filter_map, List.zip_map, allOf_map]
  -- the result matters for being `void` only
  cases s <;> rfl

theorem intersectionRelated_unsigned (ss : List Ty) (t : Ty) :
    intersectionRelated relate (ss.map Ty.unsigned) t.unsigned
      = intersectionRelated (ignoringSigns relate) ss t := by
  unfold intersectionRelated
  rw [anyOf_map, merged?_map_unsigned]
  congr 1
  funext b
  cases merged? ss <;> rfl

theorem coversBoolean_unsigned (s : Ty) (ts : List Ty) :
    coversBoolean s.unsigned (ts.map Ty.unsigned) = coversBoolean s ts := by
  have hliteral : ∀ b, Ty.boolean b ∈ ts.map Ty.unsigned ↔ Ty.boolean b ∈ ts := by
    intro b
    simp only [List.mem_map, Ty.unsigned_eq_boolean_iff, exists_eq_right]
  rw [Bool.eq_iff_iff, coversBoolean_iff, coversBoolean_iff, Ty.unsigned_eq_keyword_iff, hliteral,
    hliteral]

/-- A keyword as the source is matched by its word, so its cases are told apart. -/
theorem simpleRelated_keyword_unsigned (j : Keyword) (t : Ty) :
    simpleRelated options relate (.keyword j) t.unsigned
      = simpleRelated options (ignoringSigns relate) (.keyword j) t := by
  cases t with
  | keyword k => cases j <;> cases k <;> rfl
  | object name ps =>
    have hobject := objectRelated_unsigned relate (.keyword j) ps
    rw [Ty.unsigned_object]
    cases j with
    | null | undefined => rfl
    | _ => exact hobject
  | _ => cases j <;> rfl

theorem simpleRelated_unsigned (s t : Ty) :
    simpleRelated options relate s.unsigned t.unsigned
      = simpleRelated options (ignoringSigns relate) s t := by
  have hkeyword := fun j => simpleRelated_keyword_unsigned options relate j t
  cases t with
  | keyword k =>
    cases s with
    | keyword j => exact hkeyword j
    | _ => cases k <;> rfl
  | number y =>
    cases s with
    | keyword j => exact hkeyword j
    | number x => exact congrArg Except.ok (x.ieeeEq_unsigned y)
    | _ => rfl
  | array u =>
    cases s with
    | keyword j => exact hkeyword j
    | tuple ss =>
      rw [Ty.unsigned_tuple]
      exact allOf_map _ _ _
    | _ => rfl
  | tuple ts =>
    cases s with
    | keyword j => exact hkeyword j
    | tuple ss =>
      rw [Ty.unsigned_tuple, Ty.unsigned_tuple]
      exact pairwise_unsigned relate ss ts
    | _ => rfl
  | function qs r n =>
    cases s with
    | keyword j => exact hkeyword j
    | function ps q m =>
      rw [Ty.unsigned_function, Ty.unsigned_function]
      exact functionRelated_unsigned options relate ps qs q r m n
    | _ => rfl
  | reference name ts =>
    cases s with
    | keyword j => exact hkeyword j
    | reference name' ss =>
      rw [Ty.unsigned_reference, Ty.unsigned_reference, simpleRelated, simpleRelated,
        pairwise_unsigned]
    | _ => rfl
  | object name ps =>
    have hobject := objectRelated_unsigned relate s ps
    rw [Ty.unsigned_object] at hkeyword ⊢
    cases s with
    | keyword j => exact hkeyword j
    | _ => exact hobject
  | _ =>
    cases s with
    | keyword j => exact hkeyword j
    | _ => rfl

theorem compositeRelated_unsigned (s t : Ty) :
    compositeRelated options relate s.unsigned t.unsigned
      = compositeRelated options (ignoringSigns relate) s t := by
  have hsimple := simpleRelated_unsigned options relate s t
  cases t with
  | intersection ts =>
    rw [Ty.unsigned_intersection, compositeRelated, compositeRelated, allOf_map]
  | _ =>
    cases s with
    | intersection ss =>
      rw [Ty.unsigned_intersection]
      exact intersectionRelated_unsigned relate ss _
    | _ => exact hsimple

/-- One level over types without signs is one level over the types. -/
theorem step_unsigned (s t : Ty) :
    step options relate s.unsigned t.unsigned = step options (ignoringSigns relate) s t := by
  -- the cases of the types without signs are those of the types
  cases s, t using step_cases with
  | toAny | toUnknown => rfl
  | fromAny t hany hunknown =>
    have hany' := Ty.unsigned_ne_keyword hany
    have hunknown' := Ty.unsigned_ne_keyword hunknown
    simp only [Ty.unsigned, step]
    cases t <;> rfl
  | fromNever t hany hunknown | fromUnknown t hany hunknown =>
    have hany' := Ty.unsigned_ne_keyword hany
    have hunknown' := Ty.unsigned_ne_keyword hunknown
    simp only [Ty.unsigned, step]
  | fromUnion ss t hany hunknown =>
    have hany' := Ty.unsigned_ne_keyword hany
    have hunknown' := Ty.unsigned_ne_keyword hunknown
    simp only [Ty.unsigned_union, step, allOf_map]
  | covered s ts hany hnever hunknown hunion hcovers =>
    have hany' := Ty.unsigned_ne_keyword hany
    have hnever' := Ty.unsigned_ne_keyword hnever
    have hunknown' := Ty.unsigned_ne_keyword hunknown
    have hunion' := Ty.unsigned_ne_union hunion
    simp only [Ty.unsigned_union, step, coversBoolean_unsigned, if_pos hcovers]
  | toUnion s ts hany hnever hunknown hunion hcovers =>
    have hany' := Ty.unsigned_ne_keyword hany
    have hnever' := Ty.unsigned_ne_keyword hnever
    have hunknown' := Ty.unsigned_ne_keyword hunknown
    have hunion' := Ty.unsigned_ne_union hunion
    simp only [Ty.unsigned_union, step, coversBoolean_unsigned, if_neg hcovers, anyOf_map]
  | composite s t htany htunknown hsany hsnever hsunknown hsunion htunion =>
    have htany' := Ty.unsigned_ne_keyword htany
    have htunknown' := Ty.unsigned_ne_keyword htunknown
    have hsany' := Ty.unsigned_ne_keyword hsany
    have hsnever' := Ty.unsigned_ne_keyword hsnever
    have hsunknown' := Ty.unsigned_ne_keyword hsunknown
    have hsunion' := Ty.unsigned_ne_union hsunion
    have htunion' := Ty.unsigned_ne_union htunion
    simp only [step, compositeRelated_unsigned]

end Levels

/-- Taking the signs away from the zeros does not change what is related. -/
theorem relates_unsigned (options : Options) (s t : Ty) :
    relates options s.unsigned t.unsigned = relates options s t := by
  -- the relation of the types without signs is also what one level makes of itself
  have hfixed : ∀ a b : Ty, step options
      (fun s t => .ok (relates options s.unsigned t.unsigned)) a b
        = .ok (relates options a.unsigned b.unsigned) := by
    intro a b
    rw [← step_relates, step_unsigned]
  exact eq_relates hfixed s t

/-- Targets that are the same take the same sources. -/
theorem relates_eq_of_same {options : Options} {s t u : Ty} (h : t.same u = true) :
    relates options s t = relates options s u := by
  rw [← relates_unsigned, Ty.unsigned_eq_of_same h, relates_unsigned]

/-- Sources that are the same are related to the same targets. -/
theorem relates_source_eq_of_same {options : Options} {s t u : Ty} (h : s.same u = true) :
    relates options s t = relates options u t := by
  rw [← relates_unsigned, Ty.unsigned_eq_of_same h, relates_unsigned]

end Assign

end PropCheck
