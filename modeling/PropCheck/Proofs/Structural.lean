import PropCheck.Proofs.BuiltUnions
import PropCheck.Proofs.Rearrangement

/-!
# The relation is structural

What is related depends neither on the names of objects and parameters, nor on the order of
properties, nor on the order and number of the members of a union.

* `Assign.Agree`: two types are related exactly if all that they can be rearranged to are.
* `Assign.AgreeBelow`: so are all pairs of types below a height.
* `Assign.relates_optional_eq`, `Assign.relates_declared_eq`: making types optional keeps this,
  although the unions that are built drop members by comparing them.
* `Assign.relates_object_eq`: objects with rearranged properties under each name are related to the
  same targets.
* `Assign.agree_of_agreeBelow`: the step of the induction on heights.
* `Assign.assignable_eq_of_rearranged`: assignability is structural.
-/

namespace PropCheck.Assign

variable {options : Options}

/-- Two types are related exactly if all that they can be rearranged to are. -/
def Agree (options : Options) (s t : Ty) : Prop :=
  ∀ s' t', s.Rearranged s' → t.Rearranged t' → relates options s t = relates options s' t'

/-- All pairs of types that are together lower than a bound agree with what they can be rearranged
to. -/
def AgreeBelow (options : Options) (n : Nat) : Prop :=
  ∀ s t : Ty, s.DistinctNames → t.DistinctNames → s.height + t.height < n → Agree options s t

/-! ### Sources and targets that are decided at once -/

theorem agree_top {t : Ty} (ht : t = .any ∨ t = .unknown) (s : Ty) : Agree options s t := by
  intro s' t' _ htt
  rcases ht with rfl | rfl
  · cases htt
    rw [relates_any_target, relates_any_target]
  · cases htt
    rw [relates_unknown_target, relates_unknown_target]

theorem agree_any_source (t : Ty) : Agree options .any t := by
  intro s' t' hss htt
  cases hss
  by_cases hnever : t = .never
  · rw [hnever, htt.eq_keyword_iff.mp hnever]
  · rw [relates_any_source hnever, relates_any_source (mt htt.eq_keyword_iff.mpr hnever)]

theorem agree_never_source (t : Ty) : Agree options .never t := by
  intro s' t' hss _
  cases hss
  rw [relates_never_source, relates_never_source]

theorem agree_unknown_source (t : Ty) : Agree options .unknown t := by
  intro s' t' hss htt
  cases hss
  rw [Bool.eq_iff_iff, relates_unknown_source, relates_unknown_source, htt.eq_keyword_iff,
    htt.eq_keyword_iff]

/-! ### Unions -/

theorem agree_union_source {ss : List Ty} {t : Ty} (h : ∀ s ∈ ss, Agree options s t) :
    Agree options (.union ss) t := by
  intro s' t' hss htt
  obtain ⟨us, rfl, hcovers⟩ := hss.exists_union
  rw [relates_union_source, relates_union_source]
  exact hcovers.all_eq fun s hs u _ hsu => h s hs u t' hsu htt

theorem coversBoolean_eq {s s' : Ty} {ts us : List Ty} (hss : s.Rearranged s')
    (h : Covers Ty.Rearranged ts us) : coversBoolean s ts = coversBoolean s' us := by
  have hliteral : ∀ b, Ty.boolean b ∈ ts ↔ Ty.boolean b ∈ us := by
    intro b
    constructor
    · intro hb
      obtain ⟨u, hu, hbu⟩ := h.1 _ hb
      exact hbu.eq_boolean_iff.mp rfl ▸ hu
    · intro hb
      obtain ⟨t, ht, htb⟩ := h.2 _ hb
      exact htb.eq_boolean_iff.mpr rfl ▸ ht
  rw [Bool.eq_iff_iff, coversBoolean_iff, coversBoolean_iff, hss.eq_keyword_iff, hliteral,
    hliteral]

theorem agree_union_target {s : Ty} {ts : List Ty} (hs : s.Ordinary)
    (h : ∀ t ∈ ts, Agree options s t) : Agree options s (.union ts) := by
  intro s' t' hss htt
  obtain ⟨us, rfl, hcovers⟩ := htt.exists_union
  rw [relates_union_target hs, relates_union_target (hss.ordinary hs),
    coversBoolean_eq hss hcovers, hcovers.any_eq fun t ht u _ htu => h t ht s' u hss htu]

/-! ### Optional types -/

/-- A type that is made optional is related if it is and if `undefined` is. -/
theorem relates_optional_source (s t : Ty) :
    relates options (s.optional true) t
      = (relates options s t && relates options .undefined t) := by
  show relates options (Ty.unionOf [s, .undefined]) t = _
  rw [relates_unionOf_source, List.all_cons, List.all_cons, List.all_nil, Bool.and_true]

/-- Types that are rearranged are related to optional types alike. -/
theorem relates_optional_eq {n : Nat} (h : AgreeBelow options n) {a a' b b' : Ty}
    (ha : a.DistinctNames) (hb : b.DistinctNames) (hn : a.height + b.height < n)
    (haa : a.Rearranged a') (hbb : b.Rearranged b') :
    relates options a (b.optional true) = relates options a' (b'.optional true) := by
  -- the law of optional types asks for an ordinary source, so unions are taken apart first
  induction a using Ty.unionInduction generalizing a' with
  | union as ih =>
    obtain ⟨us, rfl, hcovers⟩ := haa.exists_union
    rw [relates_union_source, relates_union_source]
    refine hcovers.all_eq fun x hx u _ hxu => ?_
    have hlower := Ty.height_lt_union hx
    exact ih x hx (ha.part hx) (by omega) hxu
  | other a hunion =>
    by_cases hany : a = .any
    · subst hany
      cases haa
      rw [relates_any_source (b.optional_true_ne_keyword (by decide)),
        relates_any_source (b'.optional_true_ne_keyword (by decide))]
    by_cases hnever : a = .never
    · subst hnever
      cases haa
      rw [relates_never_source, relates_never_source]
    by_cases hunknown : a = .unknown
    · subst hunknown
      cases haa
      rw [relates_unknown_optional, relates_unknown_optional]
    · have hs : a.Ordinary := ⟨hany, hnever, hunknown, hunion⟩
      have hundefined : Agree options a .undefined := by
        have hone := b.one_le_height
        apply h a .undefined ha (Ty.distinctNames_keyword _)
        show a.height + 1 < n
        omega
      rw [relates_optional hs, relates_optional (haa.ordinary hs), h a b ha hb hn a' b' haa hbb,
        hundefined a' .undefined haa (.keyword _)]

/-- What rearranged slots are declared with is related alike. -/
theorem relates_declared_eq {n : Nat} (h : AgreeBelow options n) {p p' q q' : Slot Ty}
    (hp : p.type.DistinctNames) (hq : q.type.DistinctNames)
    (hn : p.type.height + q.type.height < n) (hpp : p.Rearranged p') (hqq : q.Rearranged q') :
    relates options p.declared q.declared = relates options p'.declared q'.declared := by
  -- all that is no higher than the type of the source slot, `undefined` among it
  have htarget : ∀ a a' : Ty, a.DistinctNames → a.height ≤ p.type.height → a.Rearranged a' →
      relates options a q.declared = relates options a' q'.declared := by
    intro a a' ha hle haa
    unfold Slot.declared
    rw [← hqq.optional_eq]
    cases q.optional with
    | false => exact h a q.type ha hq (by omega) a' q'.type haa hqq.type
    | true => exact relates_optional_eq h ha hq (by omega) haa hqq.type
  have htype := htarget p.type p'.type hp (Nat.le_refl _) hpp.type
  have hundefined := htarget .undefined .undefined (Ty.distinctNames_keyword _)
    p.type.one_le_height (.keyword _)
  show relates options (p.type.optional p.optional) q.declared
    = relates options (p'.type.optional p'.optional) q'.declared
  rw [← hpp.optional_eq]
  cases p.optional with
  | false => exact htype
  | true => rw [relates_optional_source, relates_optional_source, htype, hundefined]

/-! ### Objects -/

theorem supplies_eq {n : Nat} (h : AgreeBelow options n) {ps ps' : List (Slot Ty)} {q q' : Slot Ty}
    (hps : ∀ p ∈ ps, p.type.DistinctNames) (hq : q.type.DistinctNames)
    (hn : ∀ p ∈ ps, p.type.height + q.type.height < n) (hpps : Slot.Alike ps ps')
    (hqq : q.Rearranged q') : supplies options ps q = supplies options ps' q' := by
  have hname := hpps q.name
  unfold supplies
  rw [← hqq.name_eq, ← hqq.optional_eq]
  cases hp : Slot.find? ps q.name with
  | none =>
    rw [hp] at hname
    generalize Slot.find? ps' q.name = found at hname ⊢
    cases hname
    rfl
  | some p =>
    rw [hp] at hname
    generalize Slot.find? ps' q.name = found at hname ⊢
    cases hname with
    | some hpp =>
      have hmem := Slot.mem_of_find? hp
      show ((!p.optional || q.optional) && relates options p.declared q.declared) = _
      rw [hpp.optional_eq, relates_declared_eq h (hps p hmem) hq (hn p hmem) hpp hqq]

/-- **Objects with rearranged properties under each name are related to the same targets.** -/
theorem relates_object_eq {n : Nat} (h : AgreeBelow options n) {ps ps' : List (Slot Ty)}
    {t t' : Ty} (a b : Option String) (hps : ∀ p ∈ ps, p.type.DistinctNames)
    (ht : t.DistinctNames) (hplain : t.Plain) (hn : ∀ p ∈ ps, p.type.height + t.height ≤ n)
    (hpps : Slot.Alike ps ps') (htt : t.Rearranged t') :
    relates options (.object a ps) t = relates options (.object b ps') t' := by
  have hplain' := htt.plain hplain
  -- only a target that is an object looks at the properties
  by_cases hobject : ∃ c qs, t = .object c qs
  · obtain ⟨c, qs, rfl⟩ := hobject
    obtain ⟨c', qs', rfl, hcovers⟩ := htt.exists_object
    rw [relates_objects, relates_objects]
    refine hcovers.all_eq fun q hq q' _ hqq => ?_
    have hpart : q.type ∈ (Ty.object c qs).parts := List.mem_map_of_mem hq
    have hlower := Ty.height_lt_of_mem_parts hpart
    apply supplies_eq h hps (ht.part hpart) _ hpps hqq
    intro p hp
    have hle := hn p hp
    omega
  · apply Except.ok.inj
    rw [ok_relates_eq_simpleRelated (Ty.ordinary_object a ps) (fun _ => Ty.noConfusion) hplain,
      ok_relates_eq_simpleRelated (Ty.ordinary_object b ps') (fun _ => Ty.noConfusion) hplain']
    cases htt with
    | keyword k => cases k <;> rfl
    | object => exact absurd ⟨_, _, rfl⟩ hobject
    | _ => rfl

/-! ### Places in order -/

theorem allOf_zip_eq {α β : Type} {r : α → α → Prop} {r' : β → β → Prop} {xs xs' : List α}
    {ys ys' : List β} {ask : α × β → Verdict} (hxs : List.Forall₂ r xs xs')
    (hys : List.Forall₂ r' ys ys')
    (h : ∀ x ∈ xs, ∀ y ∈ ys, ∀ x' y', r x x' → r' y y' → ask (x, y) = ask (x', y')) :
    allOf ask (xs.zip ys) = allOf ask (xs'.zip ys') := by
  induction hxs generalizing ys ys' with
  | nil => rfl
  | @cons x x' xs xs' hx _ ih =>
    cases hys with
    | nil => rfl
    | @cons y y' ys ys' hy hys =>
      rw [List.zip_cons_cons, List.zip_cons_cons, allOf, allOf,
        h x (List.mem_cons_self ..) y (List.mem_cons_self ..) x' y' hx hy,
        ih hys fun z hz w hw => h z (List.mem_cons_of_mem x hz) w (List.mem_cons_of_mem y hw)]

/-- Two lists of parts agree in both directions. -/
def PartsAgree (options : Options) (ss ts : List Ty) : Prop :=
  ∀ a ∈ ss, ∀ b ∈ ts, Agree options a b ∧ Agree options b a

theorem pairwise_eq {ss ss' ts ts' : List Ty} (h : PartsAgree options ss ts)
    (hss : List.Forall₂ Ty.Rearranged ss ss') (hts : List.Forall₂ Ty.Rearranged ts ts') :
    pairwise (fun a b => .ok (relates options a b)) ss ts
      = pairwise (fun a b => .ok (relates options a b)) ss' ts' := by
  rw [pairwise, pairwise, hss.length_eq, hts.length_eq]
  congr 1
  exact allOf_zip_eq hss hts fun a ha b hb a' b' haa hbb =>
    congrArg Except.ok ((h a ha b hb).1 a' b' haa hbb)

theorem functionRelated_eq {ps ps' qs qs' : List (Slot Ty)} {r r' s s' : Ty} {m n : Bool}
    (hparams : PartsAgree options (ps.map (·.type)) (qs.map (·.type)))
    (hresult : Agree options r s)
    (hpsOptional : ps.map (·.optional) = ps'.map (·.optional))
    (hps : List.Forall₂ Ty.Rearranged (ps.map (·.type)) (ps'.map (·.type)))
    (hqs : List.Forall₂ Ty.Rearranged (qs.map (·.type)) (qs'.map (·.type)))
    (hrr : r.Rearranged r') (hss : s.Rearranged s') :
    functionRelated options (fun a b => .ok (relates options a b)) ps r m qs s n
      = functionRelated options (fun a b => .ok (relates options a b)) ps' r' m qs' s' n := by
  have hrequired : ∀ slots : List (Slot Ty), (slots.filter (!·.optional)).length
      = ((slots.map (·.optional)).filter (!·)).length := by
    intro slots
    rw [List.filter_map, List.length_map]
    rfl
  have hlength : qs.length = qs'.length := by
    simpa using hqs.length_eq
  rw [List.forall₂_map_left_iff, List.forall₂_map_right_iff] at hps hqs
  have hall : ∀ bivariant,
      allOf (parameterRelated (fun a b => .ok (relates options a b)) bivariant) (ps.zip qs)
        = allOf (parameterRelated (fun a b => .ok (relates options a b)) bivariant)
            (ps'.zip qs') := by
    intro bivariant
    refine allOf_zip_eq hps hqs fun p hp q hq p' q' hpp hqq => ?_
    obtain ⟨hpq, hqp⟩ := hparams p.type (List.mem_map_of_mem hp) q.type (List.mem_map_of_mem hq)
    rw [parameterRelated, parameterRelated, hpq _ _ hpp hqq, hqp _ _ hqq hpp]
  simp only [functionRelated, hrequired, hpsOptional, hlength, hall, hresult r' s' hrr hss]
  -- the result matters for being `void` only
  cases hss <;> rfl

/-! ### Types that are looked into last -/

theorem objectRelated_eq (relate : Ty → Ty → Verdict) {s s' : Ty} {qs qs' : List (Slot Ty)}
    (hobject : ∀ a ps, s ≠ .object a ps) (hss : s.Rearranged s')
    (hqs : Covers Slot.Rearranged qs qs') :
    objectRelated relate s qs = objectRelated relate s' qs' := by
  have hall : qs.all (·.optional) = qs'.all (·.optional) :=
    hqs.all_eq fun q _ q' _ hqq => hqq.optional_eq
  cases hss with
  | object => exact absurd rfl (hobject _ _)
  | _ => exact congrArg Except.ok hall

/-- A keyword as the source is matched by its word, so its cases are told apart. -/
theorem simpleRelated_keyword_eq (relate : Ty → Ty → Verdict) {t t' : Ty} (htt : t.Rearranged t')
    (j : Keyword) :
    simpleRelated options relate (.keyword j) t = simpleRelated options relate (.keyword j) t' := by
  by_cases hobject : ∃ c qs, t = .object c qs
  · obtain ⟨c, qs, rfl⟩ := hobject
    obtain ⟨c', qs', rfl, hcovers⟩ := htt.exists_object
    have hnone : objectRelated relate (.keyword j) qs = objectRelated relate (.keyword j) qs' :=
      objectRelated_eq relate (fun _ _ => Ty.noConfusion) (.keyword j) hcovers
    cases j with
    | null | undefined => rfl
    | _ => exact hnone
  · cases htt with
    | object => exact absurd ⟨_, _, rfl⟩ hobject
    | keyword | string | number | boolean => rfl
    | _ => cases j <;> rfl

theorem simpleRelated_eq {s s' t t' : Ty} (h : PartsAgree options s.parts t.parts)
    (hobject : ∀ a ps, s ≠ .object a ps) (hss : s.Rearranged s') (htt : t.Rearranged t') :
    simpleRelated options (fun a b => .ok (relates options a b)) s t
      = simpleRelated options (fun a b => .ok (relates options a b)) s' t' := by
  have hkeyword : ∀ j, simpleRelated options (fun a b => .ok (relates options a b)) (.keyword j) t
      = simpleRelated options (fun a b => .ok (relates options a b)) (.keyword j) t' :=
    simpleRelated_keyword_eq _ htt
  cases htt with
  | keyword k =>
    cases hss with
    | keyword j => exact hkeyword j
    | _ => cases k <;> rfl
  | array htt =>
    cases hss with
    | keyword j => exact hkeyword j
    | array hss =>
      have hagree := h _ (List.mem_singleton_self _) _ (List.mem_singleton_self _)
      exact congrArg Except.ok (hagree.1 _ _ hss htt)
    | @tuple ss ss' hss =>
      simp only [simpleRelated, allOf_ok]
      rw [(Covers.of_forall₂ hss).all_eq fun a ha a' _ haa =>
        (h a ha _ (List.mem_singleton_self _)).1 a' _ haa htt]
    | _ => rfl
  | tuple htt =>
    cases hss with
    | keyword j => exact hkeyword j
    | tuple hss => exact pairwise_eq h hss htt
    | _ => rfl
  | function method _ hqs hresult =>
    cases hss with
    | keyword j => exact hkeyword j
    | function method' hoptional hps hresult' =>
      have hparams := fun a ha b hb =>
        h a (List.mem_append_left _ ha) b (List.mem_append_left _ hb)
      have hagree := h _ (List.mem_append_right _ (List.mem_singleton_self _)) _
        (List.mem_append_right _ (List.mem_singleton_self _))
      exact functionRelated_eq hparams hagree.1 hoptional hps hqs hresult' hresult
    | _ => rfl
  | @reference ts _ name htt =>
    cases hss with
    | keyword j => exact hkeyword j
    | @reference ss _ name' hss =>
      have hparts : PartsAgree options ss ts := h
      rw [simpleRelated, simpleRelated, pairwise_eq hparts hss htt]
    | _ => rfl
  | object a b hperm hname hoptional htype =>
    have hcovers : Covers Slot.Rearranged _ _ :=
      .of_perm_forall₂ hperm (Slot.forall₂_rearranged hname hoptional htype)
    have hnone := objectRelated_eq (fun a b => .ok (relates options a b)) hobject hss hcovers
    cases hss with
    | keyword j => exact hkeyword j
    | _ => exact hnone
  | _ =>
    cases hss with
    | keyword j => exact hkeyword j
    | _ => rfl

theorem agree_simple {s t : Ty} (h : AgreeBelow options (s.height + t.height))
    (hs : s.DistinctNames) (ht : t.DistinctNames) (hordinary : s.Ordinary)
    (hinter : ∀ ss, s ≠ .intersection ss) (hplain : t.Plain) : Agree options s t := by
  intro s' t' hss htt
  by_cases hobject : ∃ a ps, s = .object a ps
  · obtain ⟨a, ps, rfl⟩ := hobject
    obtain ⟨b, ps', rfl, -⟩ := hss.exists_object
    have hpart : ∀ p ∈ ps, p.type ∈ (Ty.object a ps).parts := fun p hp => List.mem_map_of_mem hp
    apply relates_object_eq h a b (fun p hp => hs.part (hpart p hp)) ht hplain _
      (hss.alike hs.nodup) htt
    intro p hp
    have hlower := Ty.height_lt_of_mem_parts (hpart p hp)
    omega
  · have hparts : PartsAgree options s.parts t.parts := by
      intro a ha b hb
      have hlower := Ty.height_lt_of_mem_parts ha
      have hlower' := Ty.height_lt_of_mem_parts hb
      exact ⟨h a b (hs.part ha) (ht.part hb) (by omega),
        h b a (ht.part hb) (hs.part ha) (by omega)⟩
    have hinter' : ∀ ss, s' ≠ .intersection ss := by
      rintro ss rfl
      cases hss
      exact hinter _ rfl
    apply Except.ok.inj
    rw [ok_relates_eq_simpleRelated hordinary hinter hplain,
      ok_relates_eq_simpleRelated (hss.ordinary hordinary) hinter' (htt.plain hplain)]
    exact simpleRelated_eq hparts (fun a ps heq => hobject ⟨a, ps, heq⟩) hss htt

/-! ### Intersections -/

theorem agree_intersection_target {s : Ty} {ts : List Ty} (hs : s.Ordinary)
    (h : ∀ t ∈ ts, Agree options s t) : Agree options s (.intersection ts) := by
  intro s' t' hss htt
  cases htt with
  | intersection htt =>
    rw [relates_intersection_target hs, relates_intersection_target (hss.ordinary hs)]
    exact (Covers.of_forall₂ htt).all_eq fun t ht t' _ htt => h t ht s' t' hss htt

/-- The objects that rearranged intersections amount to are related to the same targets. -/
theorem relates_merged_eq {ss ss' : List Ty} {t t' : Ty}
    (h : AgreeBelow options ((Ty.intersection ss).height + t.height))
    (hss : (Ty.intersection ss).DistinctNames) (ht : t.DistinctNames) (hplain : t.Plain)
    (hsss : List.Forall₂ Ty.Rearranged ss ss') (htt : t.Rearranged t') :
    (merged? ss).any (relates options · t) = (merged? ss').any (relates options · t') := by
  have hrel := rel_mergeProperties? hsss (fun s hs => hss.part hs) (Slot.alike_of_forall₂ .nil)
  unfold merged?
  cases hmerged : mergeProperties? ss [] with
  | none =>
    rw [hmerged] at hrel
    generalize mergeProperties? ss' [] = merged' at hrel ⊢
    cases hrel
    rfl
  | some ps =>
    rw [hmerged] at hrel
    generalize mergeProperties? ss' [] = merged' at hrel ⊢
    cases hrel with
    | some halike =>
      -- a merged property is one of a member
      have hpart : ∀ p ∈ ps, ∃ s ∈ ss, p.type ∈ s.parts := by
        intro p hp
        rcases mem_of_mem_mergeProperties hmerged hp with hp | ⟨name, qs, hmem, hp⟩
        · cases hp
        · exact ⟨_, hmem, List.mem_map_of_mem hp⟩
      apply relates_object_eq h none none _ ht hplain _ halike htt
      · intro p hp
        obtain ⟨s, hs, hps⟩ := hpart p hp
        exact (hss.part hs).part hps
      · intro p hp
        obtain ⟨s, hs, hps⟩ := hpart p hp
        have hlower := Ty.height_lt_of_mem_parts hps
        have hlower' := Ty.height_lt_intersection hs
        omega

theorem agree_intersection_source {ss : List Ty} {t : Ty}
    (h : AgreeBelow options ((Ty.intersection ss).height + t.height))
    (hss : (Ty.intersection ss).DistinctNames) (ht : t.DistinctNames) (hplain : t.Plain) :
    Agree options (.intersection ss) t := by
  intro s' t' hsss htt
  cases hsss with
  | intersection hsss =>
    have hmembers : ∀ s ∈ ss, Agree options s t := by
      intro s hs
      have hlower := Ty.height_lt_intersection hs
      exact h s t (hss.part hs) ht (by omega)
    rw [relates_intersection_source hplain, relates_intersection_source (htt.plain hplain),
      relates_merged_eq h hss ht hplain hsss htt,
      (Covers.of_forall₂ hsss).any_eq fun s hs s' _ hs' => hmembers s hs s' t' hs' htt]

/-! ### All types -/

/-- Types agree with what they can be rearranged to if all lower ones do. -/
theorem agree_of_agreeBelow {s t : Ty} (h : AgreeBelow options (s.height + t.height))
    (hs : s.DistinctNames) (ht : t.DistinctNames) : Agree options s t := by
  have hsource : ∀ u ∈ s.parts, Agree options u t := by
    intro u hu
    have hlower := Ty.height_lt_of_mem_parts hu
    exact h u t (hs.part hu) ht (by omega)
  have htarget : ∀ u ∈ t.parts, Agree options s u := by
    intro u hu
    have hlower := Ty.height_lt_of_mem_parts hu
    exact h s u hs (ht.part hu) (by omega)
  by_cases hunion : ∃ ss, s = .union ss
  · obtain ⟨ss, rfl⟩ := hunion
    exact agree_union_source hsource
  by_cases hany : s = .any
  · exact hany ▸ agree_any_source t
  by_cases hnever : s = .never
  · exact hnever ▸ agree_never_source t
  by_cases hunknown : s = .unknown
  · exact hunknown ▸ agree_unknown_source t
  have hordinary : s.Ordinary := ⟨hany, hnever, hunknown, fun ss heq => hunion ⟨ss, heq⟩⟩
  induction t using Ty.targetInduction with
  | any => exact agree_top (Or.inl rfl) s
  | unknown => exact agree_top (Or.inr rfl) s
  | union ts => exact agree_union_target hordinary htarget
  | intersection ts => exact agree_intersection_target hordinary htarget
  | plain t hplain =>
    by_cases hinter : ∃ ss, s = .intersection ss
    · obtain ⟨ss, rfl⟩ := hinter
      exact agree_intersection_source h hs ht hplain
    · exact agree_simple h hs ht hordinary (fun ss heq => hinter ⟨ss, heq⟩) hplain

theorem agree_of_distinctNames {s t : Ty} (hs : s.DistinctNames) (ht : t.DistinctNames) :
    Agree options s t := by
  induction hn : s.height + t.height using Nat.strongRecOn generalizing s t with
  | ind n ih =>
    subst hn
    exact agree_of_agreeBelow (fun a b ha hb hlt => ih _ hlt ha hb rfl) hs ht

/-- **Assignability is structural.**  Within the limit on the levels, it does not change when the
source and the target are rearranged at any depth: when objects and parameters get other names,
properties another order, and unions their members in another order or repeated, if no object has
two properties of one name. -/
theorem assignable_eq_of_rearranged (options : Options) {s s' t t' : Ty}
    (hheight : s.height + t.height ≤ 66) (hs : s.DistinctNames) (ht : t.DistinctNames)
    (hss : s.Rearranged s') (htt : t.Rearranged t') :
    assignable options t s = assignable options t' s' := by
  have hheight' : s'.height + t'.height ≤ 66 := by
    rw [← hss.height_eq, ← htt.height_eq]
    exact hheight
  rw [assignable_eq_relates hheight, assignable_eq_relates hheight']
  exact agree_of_distinctNames hs ht s' t' hss htt

/-- A union with a repeated member in an optional property, and a function with another name for its
parameter, in a renamed object whose properties have changed places. -/
theorem assignable_eq_of_rearranged_props :
    let handler (param : String) : Ty := .function [⟨param, .any, false⟩] .void false
    let s : Ty := .object (some "Props")
      [⟨"id", .union [.string "a", .null], true⟩, ⟨"handler", handler "event", false⟩]
    let s' : Ty := .object none
      [⟨"handler", handler "e", false⟩, ⟨"id", .union [.null, .string "a", .null], true⟩]
    let t : Ty := .object none [⟨"id", .union [.keyword .string, .null], true⟩]
    s.height + t.height ≤ 66 ∧ s.DistinctNames ∧ t.DistinctNames ∧ s.Rearranged s' ∧
      assignable .strictest t s = assignable .strictest t s' := by
  intro handler s s' t
  have hheight : s.height + t.height ≤ 66 := by decide
  have hs : s.DistinctNames := by
    simp [Ty.DistinctNames, s, handler, Ty.inside, Ty.insideAll, Ty.insideSlots]
  have ht : t.DistinctNames := by
    simp [Ty.DistinctNames, t, Ty.inside, Ty.insideAll, Ty.insideSlots]
  have hhandler : (handler "event").Rearranged (handler "e") :=
    .function false rfl (.cons (.keyword .any) .nil) (.keyword .void)
  have hid : (Ty.union [.string "a", .null]).Rearranged (.union [.null, .string "a", .null]) :=
    .union (.cons (.string "a") (.cons (.keyword .null) .nil)) (by simp)
      (.cons (.keyword .null) (.cons (.string "a") (.cons (.keyword .null) .nil))) (by simp)
  have hss : s.Rearranged s' :=
    .object _ _ (.swap _ _ []) rfl rfl (.cons hhandler (.cons hid .nil))
  exact ⟨hheight, hs, ht, hss, assignable_eq_of_rearranged .strictest hheight hs ht hss (.refl t)⟩

end PropCheck.Assign
