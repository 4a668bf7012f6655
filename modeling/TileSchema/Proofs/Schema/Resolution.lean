import Mathlib.Data.List.Induction
import Mathlib.Logic.Relation
import TileSchema.Proofs.Schema.Segments

/-!
# Where a relative path leads

Two paths lead to the same place, as far as their texts tell, if one becomes the other by leaving
out, or putting in, segments that stay where they are, and names with two dots right behind them
(`SamePath`).  Every path has exactly one normal form under this relation
(`isNormalForm_normalForm`, `IsNormalForm.eq_of_samePath`): what is left out of a path does not
change where one walks along it, and walking along a normal path gives this path.

A reference is resolved by walking from a directory whose segments are taken as they are.  A segment
that stays is then left like a directory when the path goes up, and two dots behind a name are never
looked at.  Whether this shows depends on how far the path goes up, and `ClimbsFreely` says when it
does not.  That the condition is sufficient follows the walk, step by step (`keep_climb`).  That it
is necessary needs a quantity that a walk cannot restore.  This is the level of a path, the number
of its names less that of its two dots: going up lowers it by one, except from a segment that stays
(`level_climb`).
-/

namespace TileSchema.Reference

variable {p q r place : List Segment} {s : Segment} {k : Nat}

/-! ### Paths that lead to the same place -/

/-- A segment that names something: it neither stays nor goes up. -/
def IsName (s : Segment) : Prop := stays s = false ∧ s ≠ up

instance (s : Segment) : Decidable (IsName s) := inferInstanceAs (Decidable (_ ∧ _))

/-- Something is left out of a path that leads nowhere: a segment that stays, or a name with two
dots right behind it. -/
inductive Shortens : List Segment → List Segment → Prop
  | stay {s : Segment} (before after : List Segment) (hs : stays s = true) :
    Shortens (before ++ s :: after) (before ++ after)
  | back {s : Segment} (before after : List Segment) (hs : IsName s) :
    Shortens (before ++ s :: up :: after) (before ++ after)

/-- Two paths lead to the same place, as far as their segments tell. -/
def SamePath : List Segment → List Segment → Prop := Relation.EqvGen Shortens

/-- In a normal path no segment stays, and two dots stand in front only. -/
structure IsNormal (p : List Segment) : Prop where
  not_stays : ∀ s ∈ p, stays s = false
  ups_first : p.Pairwise fun a b => b = up → a = up

/-- A normal form of a path is a normal path that it can be shortened to. -/
structure IsNormalForm (q p : List Segment) : Prop where
  shortens : Relation.ReflTransGen Shortens p q
  normal : IsNormal q

/-- A segment stays, goes up, or is a name. -/
theorem segment_cases (s : Segment) : stays s = true ∨ s = up ∨ IsName s := by
  by_cases hstays : stays s = true
  · exact Or.inl hstays
  · by_cases hup : s = up
    · exact Or.inr (Or.inl hup)
    · exact Or.inr (Or.inr ⟨Bool.eq_false_iff.mpr hstays, hup⟩)

/-- What shortening a path does not change is the same for paths that lead to the same place. -/
theorem SamePath.congr {α : Type} {value : List Segment → α}
    (hvalue : ∀ p q, Shortens p q → value p = value q) (h : SamePath p q) : value p = value q := by
  induction h with
  | rel p q h => exact hvalue p q h
  | refl p => rfl
  | symm p q _ ih => exact ih.symm
  | trans p q r _ _ ihpq ihqr => exact ihpq.trans ihqr

/-- A path leads to the same place as its normal form. -/
theorem IsNormalForm.samePath (h : IsNormalForm q p) : SamePath p q :=
  Relation.EqvGen.reflTransGen_le_eqvGen _ _ _ h.shortens

/-- A path can be shortened in front of something else. -/
theorem shortens_append (h : Relation.ReflTransGen Shortens p q) (r : List Segment) :
    Relation.ReflTransGen Shortens (p ++ r) (q ++ r) := by
  have hstep : ∀ p q, Shortens p q → Shortens (p ++ r) (q ++ r) := by
    intro p q hpq
    cases hpq with
    | stay before after hs => simpa using Shortens.stay before (after ++ r) hs
    | back before after hs => simpa using Shortens.back before (after ++ r) hs
  exact h.lift (· ++ r) hstep

/-! ### Walking -/

theorem stays_up : stays up = false := rfl

theorem walk_of_stays (hs : stays s = true) : walk place s = place := by
  simp only [walk, if_pos hs]

theorem walk_of_isName (hs : IsName s) : walk place s = s :: place := by
  simp only [walk, hs.1, Bool.false_eq_true, if_false, if_neg hs.2]

@[simp] theorem walk_nil_up : walk [] up = [up] := rfl

@[simp] theorem walk_up_up : walk (up :: place) up = up :: up :: place := rfl

theorem walk_cons_up (hs : s ≠ up) : walk (s :: place) up = place := by
  rw [walk, stays_up, if_neg Bool.false_ne_true, if_pos rfl]
  exact if_neg hs

/-- What is left out of a path does not change where one walks along it, wherever one starts. -/
theorem foldl_walk_of_shortens (h : Shortens p q) (place : List Segment) :
    p.foldl walk place = q.foldl walk place := by
  cases h with
  | stay before after hs =>
    rw [List.foldl_append, List.foldl_cons, walk_of_stays hs, ← List.foldl_append]
  | back before after hs =>
    rw [List.foldl_append, List.foldl_cons, List.foldl_cons, walk_of_isName hs, walk_cons_up hs.2,
      ← List.foldl_append]

/-- Along paths that lead to the same place one walks alike. -/
theorem SamePath.foldl_walk (h : SamePath p q) (place : List Segment) :
    p.foldl walk place = q.foldl walk place :=
  h.congr fun _ _ hpq => foldl_walk_of_shortens hpq place

/-- Walking along names adds them to the place. -/
theorem foldl_walk_of_forall_isName (h : ∀ s ∈ p, IsName s) :
    p.foldl walk place = p.reverse ++ place := by
  induction p generalizing place with
  | nil => rfl
  | cons s p ih =>
    obtain ⟨hs, hp⟩ := List.forall_mem_cons.mp h
    rw [List.foldl_cons, walk_of_isName hs, ih hp, List.reverse_cons, List.append_assoc]
    rfl

/-- A step adds nothing to a place but its segment. -/
theorem mem_walk {t : Segment} (h : s ∈ walk place t) : s ∈ place ∨ s = t := by
  rcases segment_cases t with ht | rfl | ht
  · rw [walk_of_stays ht] at h
    exact Or.inl h
  · match place with
    | [] => exact Or.inr (List.mem_singleton.mp h)
    | last :: rest =>
      by_cases hlast : last = up
      · rw [hlast, walk_up_up, List.mem_cons] at h
        rw [hlast]
        exact h.symm
      · rw [walk_cons_up hlast] at h
        exact Or.inl (List.mem_cons_of_mem _ h)
  · rw [walk_of_isName ht, List.mem_cons] at h
    exact h.symm

/-- Nothing is in a place that one walks to but what was there or was walked along. -/
theorem mem_foldl_walk (h : s ∈ p.foldl walk place) : s ∈ place ∨ s ∈ p := by
  induction p generalizing place with
  | nil => exact Or.inl h
  | cons t p ih =>
    rw [List.foldl_cons] at h
    rcases ih h with hplace | hp
    · rcases mem_walk hplace with hplace | rfl
      · exact Or.inl hplace
      · exact Or.inr List.mem_cons_self
    · exact Or.inr (List.mem_cons_of_mem _ hp)

/-! ### Normal forms -/

/-- A path with one more segment is normal if the segment does not stay, and goes up only behind
segments that do. -/
theorem isNormal_concat_iff :
    IsNormal (p ++ [s]) ↔ IsNormal p ∧ stays s = false ∧ (s = up → ∀ t ∈ p, t = up) := by
  constructor
  · rintro ⟨hstays, hups⟩
    obtain ⟨hp, -, hlast⟩ := List.pairwise_append.mp hups
    refine ⟨⟨fun t ht => hstays t (List.mem_append_left _ ht), hp⟩, hstays s (by simp), ?_⟩
    exact fun hup t ht => hlast t ht s (by simp) hup
  · rintro ⟨⟨hstays, hups⟩, hs, hlast⟩
    constructor
    · intro t ht
      rcases List.mem_append.mp ht with ht | ht
      · exact hstays t ht
      · rwa [List.mem_singleton.mp ht]
    · refine List.pairwise_append.mpr ⟨hups, List.pairwise_singleton _ _, ?_⟩
      intro t ht s' hs' hup
      rw [List.mem_singleton.mp hs'] at hup
      exact hlast hup t ht

/-- A normal path goes up a number of times, and then along names. -/
theorem IsNormal.exists_eq (h : IsNormal p) :
    ∃ k names, p = List.replicate k up ++ names ∧ ∀ s ∈ names, IsName s := by
  induction p with
  | nil => exact ⟨0, [], rfl, by simp⟩
  | cons s p ih =>
    obtain ⟨hs, hp⟩ := List.forall_mem_cons.mp h.not_stays
    obtain ⟨hfirst, hups⟩ := List.pairwise_cons.mp h.ups_first
    by_cases hup : s = up
    · obtain ⟨k, names, rfl, hnames⟩ := ih ⟨hp, hups⟩
      exact ⟨k + 1, names, by rw [hup]; rfl, hnames⟩
    · refine ⟨0, s :: p, rfl, List.forall_mem_cons.mpr ⟨⟨hs, hup⟩, fun t ht => ?_⟩⟩
      exact ⟨hp t ht, fun htup => hup (hfirst t ht htup)⟩

/-- Walking along a normal path from the start gives this path. -/
theorem foldl_walk_of_isNormal (h : IsNormal p) : p.foldl walk [] = p.reverse := by
  induction p using List.reverseRecOn with
  | nil => rfl
  | append_singleton p s ih =>
    obtain ⟨hp, hs, hups⟩ := isNormal_concat_iff.mp h
    rw [List.foldl_append, ih hp, List.reverse_append, List.foldl_cons, List.foldl_nil]
    by_cases hup : s = up
    · -- only two dots are in front, and going up adds to them
      have hall : ∀ t ∈ p.reverse, t = up := fun t ht => hups hup t (List.mem_reverse.mp ht)
      rw [hup]
      match p.reverse, hall with
      | [], _ => rfl
      | t :: rest, hall => rw [hall t List.mem_cons_self]; rfl
    · rw [walk_of_isName ⟨hs, hup⟩]
      rfl

/-- A step from a normal place leads to a normal place, and the path there is shortened to it. -/
theorem walk_of_isNormal (h : IsNormal place.reverse) (s : Segment) :
    IsNormal (walk place s).reverse ∧
      Relation.ReflTransGen Shortens (place.reverse ++ [s]) (walk place s).reverse := by
  rcases segment_cases s with hs | rfl | hs
  · rw [walk_of_stays hs]
    refine ⟨h, .single ?_⟩
    simpa using Shortens.stay place.reverse [] hs
  · match place with
    | [] => exact ⟨isNormal_concat_iff.mpr ⟨h, stays_up, by simp⟩, .refl⟩
    | last :: rest =>
      rw [List.reverse_cons] at h
      obtain ⟨hrest, hlast, hups⟩ := isNormal_concat_iff.mp h
      by_cases hup : last = up
      · subst hup
        rw [walk_up_up, List.reverse_cons, List.reverse_cons]
        refine ⟨isNormal_concat_iff.mpr ⟨h, stays_up, fun _ t ht => ?_⟩, .refl⟩
        rcases List.mem_append.mp ht with ht | ht
        · exact hups rfl t ht
        · exact List.mem_singleton.mp ht
      · rw [walk_cons_up hup, List.reverse_cons, List.append_assoc]
        refine ⟨hrest, .single ?_⟩
        simpa using Shortens.back rest.reverse [] ⟨hlast, hup⟩
  · rw [walk_of_isName hs, List.reverse_cons]
    exact ⟨isNormal_concat_iff.mpr ⟨h, hs.1, fun hup => absurd hup hs.2⟩, .refl⟩

/-- Where one comes by walking along a path from the start. -/
def normalForm (p : List Segment) : List Segment := (p.foldl walk []).reverse

/-- Every path has a normal form. -/
theorem isNormalForm_normalForm (p : List Segment) : IsNormalForm (normalForm p) p := by
  induction p using List.reverseRecOn with
  | nil => exact ⟨.refl, ⟨by simp [normalForm], by simp [normalForm]⟩⟩
  | append_singleton p s ih =>
    obtain ⟨hnormal, hshortens⟩ := walk_of_isNormal ih.normal s
    rw [normalForm, List.foldl_append, List.foldl_cons, List.foldl_nil]
    exact ⟨(shortens_append ih.shortens [s]).trans hshortens, hnormal⟩

/-- A normal form is where one comes by walking. -/
theorem IsNormalForm.eq_normalForm (h : IsNormalForm q p) : q = normalForm p := by
  rw [normalForm, h.samePath.foldl_walk, foldl_walk_of_isNormal h.normal, List.reverse_reverse]

/-- Paths lead to the same place exactly if they have the same normal form. -/
theorem samePath_iff : SamePath p q ↔ normalForm p = normalForm q := by
  constructor
  · intro h
    rw [normalForm, h.foldl_walk, normalForm]
  · intro h
    have hp : SamePath p (normalForm p) := (isNormalForm_normalForm p).samePath
    have hq : SamePath q (normalForm q) := (isNormalForm_normalForm q).samePath
    rw [h] at hp
    exact hp.trans _ _ _ (hq.symm _ _)

/-! ### Going up -/

/-- The place above a place, that many levels up. -/
def climb : Nat → List Segment → List Segment
  | 0, place => place
  | k + 1, place => climb k (walk place up)

/-- How many levels a path goes up above where it starts. -/
def climbs : List Segment → Nat
  | [] => 0
  | s :: p => if stays s then climbs p else if s = up then climbs p + 1 else climbs p - 1

theorem foldl_walk_replicate_up (k : Nat) (place : List Segment) :
    (List.replicate k up).foldl walk place = climb k place := by
  induction k generalizing place with
  | zero => rfl
  | succ k ih => exact ih (walk place up)

/-- A shortened path goes up as far. -/
theorem climbs_of_shortens (h : Shortens p q) : climbs p = climbs q := by
  cases h with
  | stay before after hs =>
    induction before with
    | nil => simp [climbs, hs]
    | cons t before ih => simp only [List.cons_append, climbs, ih]
  | back before after hs =>
    induction before with
    | nil => simp [climbs, hs.1, hs.2, stays_up]
    | cons t before ih => simp only [List.cons_append, climbs, ih]

theorem climbs_of_forall_isName (h : ∀ s ∈ p, IsName s) : climbs p = 0 := by
  induction p with
  | nil => rfl
  | cons s p ih =>
    obtain ⟨hs, hp⟩ := List.forall_mem_cons.mp h
    simp [climbs, hs.1, hs.2, ih hp]

theorem climbs_replicate_append (k : Nat) (p : List Segment) :
    climbs (List.replicate k up ++ p) = k + climbs p := by
  induction k with
  | zero => rw [Nat.zero_add]; rfl
  | succ k ih =>
    rw [List.replicate_succ, List.cons_append, climbs, stays_up, if_neg Bool.false_ne_true,
      if_pos rfl, ih]
    omega

/-- Walking along a path is going up as many levels as it does, and then walking along names. -/
theorem exists_foldl_walk_eq (p : List Segment) :
    ∃ names : List Segment, (∀ s ∈ names, IsName s) ∧
      ∀ place, p.foldl walk place = names ++ climb (climbs p) place := by
  obtain ⟨k, names, heq, hnames⟩ := (isNormalForm_normalForm p).normal.exists_eq
  have hsame : SamePath p (List.replicate k up ++ names) := by
    rw [← heq]
    exact (isNormalForm_normalForm p).samePath
  have hk : climbs p = k := by
    rw [hsame.congr fun _ _ => climbs_of_shortens, climbs_replicate_append,
      climbs_of_forall_isName hnames, Nat.add_zero]
  refine ⟨names.reverse, fun s hs => hnames s (List.mem_reverse.mp hs), fun place => ?_⟩
  rw [hsame.foldl_walk, List.foldl_append, foldl_walk_replicate_up, hk,
    foldl_walk_of_forall_isName hnames]

/-- Going up from a normal place leads to a normal place. -/
theorem isNormal_climb (h : IsNormal place.reverse) (k : Nat) : IsNormal (climb k place).reverse := by
  induction k generalizing place with
  | zero => exact h
  | succ k ih => exact ih (walk_of_isNormal h up).1

/-! ### Segments that stay on the way up -/

/-- A place without the segments that stay. -/
def keep (place : List Segment) : List Segment := place.filter (!stays ·)

/-- The way up from a place, that many levels, is the way up from the place without its segments
that stay: no such segment is left on the way, and there is no name behind the two dots where the
way ends. -/
structure ClimbsFreely (k : Nat) (place : List Segment) : Prop where
  near : ∀ s ∈ (place.takeWhile (· ≠ up)).take k, stays s = false
  far : ∀ s ∈ place.dropWhile (· ≠ up), ¬ IsName s

theorem keep_cons_of_not_stays (hs : stays s = false) : keep (s :: place) = s :: keep place := by
  simp [keep, hs]

theorem keep_cons_of_stays (hs : stays s = true) : keep (s :: place) = keep place := by
  simp [keep, hs]

@[simp] theorem takeWhile_up_cons : (up :: place).takeWhile (· ≠ up) = [] :=
  List.takeWhile_cons_of_neg (by simp)

@[simp] theorem dropWhile_up_cons : (up :: place).dropWhile (· ≠ up) = up :: place :=
  List.dropWhile_cons_of_neg (by simp)

theorem takeWhile_cons_of_ne_up (hs : s ≠ up) :
    (s :: place).takeWhile (· ≠ up) = s :: place.takeWhile (· ≠ up) :=
  List.takeWhile_cons_of_pos (by simpa using hs)

theorem dropWhile_cons_of_ne_up (hs : s ≠ up) :
    (s :: place).dropWhile (· ≠ up) = place.dropWhile (· ≠ up) :=
  List.dropWhile_cons_of_pos (by simpa using hs)

/-- On the way up nothing depends on the segments that stay, if none of them is left. -/
theorem keep_climb (h : ClimbsFreely k place) : keep (climb k place) = climb k (keep place) := by
  induction k generalizing place with
  | zero => rfl
  | succ k ih =>
    match place with
    | [] =>
      have hnext : ClimbsFreely k [up] := ⟨by simp, by simp [IsName]⟩
      exact ih hnext
    | last :: rest =>
      by_cases hup : last = up
      · subst hup
        have hnext : ClimbsFreely k (up :: up :: rest) := by
          have hfar := h.far
          rw [dropWhile_up_cons, List.forall_mem_cons] at hfar
          refine ⟨by rw [takeWhile_up_cons, List.take_nil]; exact nofun, ?_⟩
          rw [dropWhile_up_cons, List.forall_mem_cons, List.forall_mem_cons]
          exact ⟨hfar.1, hfar⟩
        rw [climb, walk_up_up, ih hnext, keep_cons_of_not_stays stays_up,
          keep_cons_of_not_stays stays_up, climb, walk_up_up]
      · have hnear := h.near
        have hfar := h.far
        rw [takeWhile_cons_of_ne_up hup, List.take_succ_cons, List.forall_mem_cons] at hnear
        rw [dropWhile_cons_of_ne_up hup] at hfar
        have hnext : ClimbsFreely k rest := ⟨hnear.2, hfar⟩
        rw [climb, walk_cons_up hup, ih hnext, keep_cons_of_not_stays hnear.1, climb,
          walk_cons_up hup]

/-- A place is normal without its segments that stay, if there is no name behind two dots. -/
theorem isNormal_keep (h : ∀ s ∈ place.dropWhile (· ≠ up), ¬ IsName s) :
    IsNormal (keep place).reverse := by
  induction place with
  | nil => exact ⟨by simp [keep], by simp [keep]⟩
  | cons last rest ih =>
    by_cases hup : last = up
    · subst hup
      rw [dropWhile_up_cons, List.forall_mem_cons] at h
      have hrest := ih fun s hs => h.2 s ((List.dropWhile_sublist _).subset hs)
      rw [keep_cons_of_not_stays stays_up, List.reverse_cons]
      refine isNormal_concat_iff.mpr ⟨hrest, stays_up, fun _ t ht => ?_⟩
      obtain ⟨htmem, htstays⟩ := List.mem_filter.mp (List.mem_reverse.mp ht)
      by_contra htup
      exact h.2 t htmem ⟨by simpa using htstays, htup⟩
    · rw [dropWhile_cons_of_ne_up hup] at h
      by_cases hstays : stays last = true
      · rw [keep_cons_of_stays hstays]
        exact ih h
      · rw [keep_cons_of_not_stays (Bool.eq_false_iff.mpr hstays), List.reverse_cons]
        exact isNormal_concat_iff.mpr
          ⟨ih h, Bool.eq_false_iff.mpr hstays, fun hlast => absurd hlast hup⟩

/-- Walking does not see the segments that stay. -/
theorem foldl_walk_keep (p place : List Segment) :
    (keep p).foldl walk place = p.foldl walk place := by
  induction p generalizing place with
  | nil => rfl
  | cons s p ih =>
    by_cases hs : stays s = true
    · rw [keep_cons_of_stays hs, ih, List.foldl_cons, walk_of_stays hs]
    · rw [keep_cons_of_not_stays (Bool.eq_false_iff.mpr hs), List.foldl_cons, ih, List.foldl_cons]

/-! ### The level of a path -/

/-- How many levels a segment leads down. -/
def weight (s : Segment) : Int := if stays s then 0 else if s = up then -1 else 1

/-- How many levels below its start a path ends: the number of its names less that of its two
dots. -/
def level : List Segment → Int
  | [] => 0
  | s :: p => weight s + level p

@[simp] theorem level_nil : level [] = 0 := rfl

@[simp] theorem level_cons (s : Segment) (p : List Segment) :
    level (s :: p) = weight s + level p := rfl

@[simp] theorem weight_up : weight up = -1 := rfl

theorem weight_of_stays (hs : stays s = true) : weight s = 0 := by simp [weight, hs]

theorem weight_of_isName (hs : IsName s) : weight s = 1 := by simp [weight, hs.1, hs.2]

theorem level_append (p q : List Segment) : level (p ++ q) = level p + level q := by
  induction p with
  | nil => rw [List.nil_append, level_nil, Int.zero_add]
  | cons s p ih => rw [List.cons_append, level_cons, ih, level_cons, Int.add_assoc]

theorem level_reverse (p : List Segment) : level p.reverse = level p := by
  induction p with
  | nil => rfl
  | cons s p ih =>
    rw [List.reverse_cons, level_append, ih, level_cons, level_nil, level_cons]
    omega

/-- A shortened path ends on the same level. -/
theorem level_of_shortens (h : Shortens p q) : level p = level q := by
  cases h with
  | stay before after hs => simp [level_append, weight_of_stays hs]
  | back before after hs =>
    rw [level_append, level_cons, level_cons, weight_of_isName hs, weight_up, level_append]
    omega

theorem level_keep (place : List Segment) : level (keep place) = level place := by
  induction place with
  | nil => rfl
  | cons s place ih =>
    by_cases hs : stays s = true
    · rw [keep_cons_of_stays hs, ih, level_cons, weight_of_stays hs, Int.zero_add]
    · rw [keep_cons_of_not_stays (Bool.eq_false_iff.mpr hs), level_cons, ih, level_cons]

/-- Going up lowers the level by one each time, except from segments that stay. -/
theorem level_climb (k : Nat) (place : List Segment) :
    level (climb k place) + k =
      level place + ((place.takeWhile (· ≠ up)).take k).countP (stays ·) := by
  induction k generalizing place with
  | zero => simp [climb]
  | succ k ih =>
    rw [climb]
    match place with
    | [] =>
      have hstep := ih [up]
      rw [takeWhile_up_cons, List.take_nil, List.countP_nil] at hstep
      simp only [walk_nil_up, level_cons, level_nil, weight_up, List.takeWhile_nil,
        List.take_nil, List.countP_nil] at hstep ⊢
      omega
    | last :: rest =>
      by_cases hup : last = up
      · subst hup
        have hstep := ih (up :: up :: rest)
        rw [takeWhile_up_cons, List.take_nil, List.countP_nil, level_cons, weight_up] at hstep
        rw [walk_up_up, takeWhile_up_cons, List.take_nil, List.countP_nil]
        omega
      · have hstep := ih rest
        rw [walk_cons_up hup, takeWhile_cons_of_ne_up hup, List.take_succ_cons, List.countP_cons,
          level_cons]
        by_cases hs : stays last = true
        · rw [weight_of_stays hs, if_pos hs]
          push_cast
          omega
        · rw [weight_of_isName ⟨Bool.eq_false_iff.mpr hs, hup⟩, if_neg hs]
          push_cast
          omega

/-! ### Resolved references -/

/-- Two dots behind two dots and a name stay in front of the name, however far one goes up. -/
theorem dropWhile_suffix_climb (k : Nat) (place : List Segment) :
    place.dropWhile (· ≠ up) <:+ climb k place := by
  induction k generalizing place with
  | zero => exact List.dropWhile_suffix _
  | succ k ih =>
    rw [climb]
    match place with
    | [] => exact List.nil_suffix
    | last :: rest =>
      by_cases hup : last = up
      · subst hup
        have hstep := ih (up :: up :: rest)
        rw [dropWhile_up_cons] at hstep ⊢
        exact (List.suffix_cons up (up :: rest)).trans hstep
      · rw [walk_cons_up hup, dropWhile_cons_of_ne_up hup]
        exact ih rest

/-- What stands behind two dots in a place has them in front of it. -/
theorem pair_sublist_of_mem_dropWhile (h : s ∈ place.dropWhile (· ≠ up)) (hs : s ≠ up) :
    [up, s].Sublist (place.dropWhile (· ≠ up)) := by
  induction place with
  | nil => simp at h
  | cons last rest ih =>
    by_cases hup : last = up
    · subst hup
      rw [dropWhile_up_cons] at h ⊢
      have hrest : s ∈ rest := (List.mem_cons.mp h).resolve_left hs
      exact (List.singleton_sublist.mpr hrest).cons_cons up
    · rw [dropWhile_cons_of_ne_up hup] at h ⊢
      exact ih h

/-- If going up leads to a normal place but for segments that stay, nothing but these is behind the
two dots where the way ends. -/
theorem far_of_isNormal (h : IsNormal (keep (climb k place)).reverse) :
    ∀ s ∈ place.dropWhile (· ≠ up), ¬ IsName s := by
  intro s hs hname
  have hplace : [up, s].Sublist (climb k place) :=
    (pair_sublist_of_mem_dropWhile hs hname.2).trans (dropWhile_suffix_climb k place).sublist
  have hkeep : [up, s].Sublist (keep (climb k place)) := by
    have hpair : keep [up, s] = [up, s] := by simp [keep, stays_up, hname.1]
    rw [← hpair]
    exact hplace.filter (!stays ·)
  have hpair := h.ups_first.sublist hkeep.reverse
  exact hname.2 (by simpa using hpair)

/-- Going up from a place leads to where it leads without segments that stay, up to such segments,
exactly if it does so freely. -/
theorem keep_climb_eq_iff (p : List Segment) (k : Nat) :
    keep (climb k p.reverse) = climb k (p.foldl walk []) ↔ ClimbsFreely k p.reverse := by
  have hwalk : p.foldl walk [] = (normalForm p).reverse := by
    rw [normalForm, List.reverse_reverse]
  have hnormal : IsNormal (p.foldl walk []).reverse := (isNormalForm_normalForm p).normal
  constructor
  · intro h
    refine ⟨?_, far_of_isNormal (k := k) (by rw [h]; exact isNormal_climb hnormal k)⟩
    -- both ways end on one level, so none of the segments that are left stays
    have hstart : level (p.foldl walk []) = level p.reverse := by
      rw [hwalk, level_reverse, level_reverse]
      exact ((isNormalForm_normalForm p).samePath.congr fun _ _ => level_of_shortens).symm
    have hfree : ∀ s ∈ ((p.foldl walk []).takeWhile (· ≠ up)).take k, ¬ stays s = true := by
      intro s hs
      have hmem : s ∈ p.foldl walk [] :=
        (List.takeWhile_sublist _).subset (List.mem_of_mem_take hs)
      rw [hnormal.not_stays s (List.mem_reverse.mpr hmem)]
      exact Bool.false_ne_true
    have hway := level_climb k p.reverse
    have hway' := level_climb k (p.foldl walk [])
    rw [List.countP_eq_zero.mpr hfree, ← h, level_keep, hstart] at hway'
    have hcount : ((p.reverse.takeWhile (· ≠ up)).take k).countP (stays ·) = 0 := by omega
    intro s hs
    exact Bool.eq_false_iff.mpr (List.countP_eq_zero.mp hcount s hs)
  · intro h
    have hkeep : p.foldl walk [] = keep p.reverse := by
      have hreverse : (keep p).reverse = keep p.reverse := List.filter_reverse.symm
      have hp : IsNormal (keep p) := by
        have hkeepnormal := isNormal_keep h.far
        rwa [← hreverse, List.reverse_reverse] at hkeepnormal
      rw [← foldl_walk_keep, foldl_walk_of_isNormal hp, hreverse]
    rw [keep_climb h, hkeep]

/-- Segments are resolved to the normal form of the path through the directory exactly if the path
climbs freely out of it. -/
theorem resolveSegments_eq_normalForm_iff (reference relative : List Segment) :
    resolveSegments reference relative = normalForm (reference.dropLast ++ relative) ↔
      ClimbsFreely (climbs relative) reference.dropLast.reverse := by
  obtain ⟨names, hnames, hwalk⟩ := exists_foldl_walk_eq relative
  have hdirectory : reference.reverse.drop 1 = reference.dropLast.reverse := by
    rw [List.drop_one, List.tail_reverse]
  have hkeep : keep names = names :=
    List.filter_eq_self.mpr fun s hs => by rw [(hnames s hs).1]; rfl
  have hresolved : resolveSegments reference relative =
      (names ++ keep (climb (climbs relative) reference.dropLast.reverse)).reverse := by
    rw [resolveSegments, hdirectory, List.filter_reverse, hwalk, List.filter_append]
    rw [keep] at hkeep
    rw [hkeep, keep]
  rw [hresolved, normalForm, List.foldl_append, hwalk, List.reverse_inj, List.append_cancel_left_eq,
    keep_climb_eq_iff]

/-- The path from the directory of a reference along a relative path. -/
def pathFrom (reference relative : String) : List Segment :=
  (segments reference.toList).dropLast ++ segments relative.toList

/-- The directory of a reference as a place. -/
def directoryOf (reference : String) : List Segment := (segments reference.toList).dropLast.reverse

/-- A resolved reference and the normal form of its path have the same text only if they have the
same segments. -/
theorem joinSegments_eq_iff (reference relative : String) :
    joinSegments (resolveSegments (segments reference.toList) (segments relative.toList)) =
        joinSegments (normalForm (pathFrom reference relative)) ↔
      resolveSegments (segments reference.toList) (segments relative.toList) =
        normalForm (pathFrom reference relative) := by
  have hpath : ∀ s ∈ pathFrom reference relative, '/' ∉ s := by
    intro s hs
    rcases List.mem_append.mp hs with hs | hs
    · exact notMem_of_mem_segments ((List.dropLast_sublist _).subset hs)
    · exact notMem_of_mem_segments hs
  have hne : ∀ s : Segment, stays s = false → s ≠ [] := by
    rintro _ hs rfl
    cases hs
  refine ⟨joinSegments_injective ?_ ?_, congrArg joinSegments⟩
  · intro s hs
    obtain ⟨hmem, hstays⟩ := List.mem_filter.mp hs
    refine ⟨hne s (by simpa using hstays), ?_⟩
    have hwalked := mem_foldl_walk (List.mem_reverse.mp hmem)
    rw [List.drop_one, List.tail_reverse, List.mem_reverse] at hwalked
    exact hpath s (List.mem_append.mpr hwalked)
  · intro s hs
    refine ⟨hne s ((isNormalForm_normalForm _).normal.not_stays s hs), ?_⟩
    have hwalked := mem_foldl_walk (List.mem_reverse.mp hs)
    exact hpath s (hwalked.resolve_left List.not_mem_nil)

/-- A reference is resolved to the normal form of its path exactly if the relative path climbs
freely out of the directory. -/
theorem resolve_eq_iff (reference relative : String) :
    resolve reference relative =
        String.ofList (joinSegments (normalForm (pathFrom reference relative))) ↔
      ClimbsFreely (climbs (segments relative.toList)) (directoryOf reference) := by
  rw [resolve, String.ofList_inj, joinSegments_eq_iff, pathFrom, resolveSegments_eq_normalForm_iff,
    directoryOf]

/-- Every path has exactly one normal form.  A reference is resolved to that of the path through the
directory exactly if the relative path climbs freely out of the directory: on its way up it leaves
no segment that stays, and there is no name in front of two dots in the directory.  Hence any two
ways to write a path out of such directories are resolved to the same reference. -/
theorem resolve_normalizes_iff (reference relative : String) :
    (∃! q, IsNormalForm q (pathFrom reference relative)) ∧
      ((∃ q, IsNormalForm q (pathFrom reference relative) ∧
          resolve reference relative = String.ofList (joinSegments q)) ↔
        ClimbsFreely (climbs (segments relative.toList)) (directoryOf reference)) ∧
      ∀ reference' relative' : String,
        SamePath (pathFrom reference relative) (pathFrom reference' relative') →
        ClimbsFreely (climbs (segments relative.toList)) (directoryOf reference) →
        ClimbsFreely (climbs (segments relative'.toList)) (directoryOf reference') →
          resolve reference relative = resolve reference' relative' := by
  have hform := isNormalForm_normalForm (pathFrom reference relative)
  refine ⟨⟨_, hform, fun q hq => hq.eq_normalForm⟩, ?_, ?_⟩
  · rw [← resolve_eq_iff]
    constructor
    · rintro ⟨q, hq, hresolve⟩
      rw [hresolve, hq.eq_normalForm]
    · intro hresolve
      exact ⟨_, hform, hresolve⟩
  · intro reference' relative' hsame hfree hfree'
    rw [(resolve_eq_iff reference relative).mpr hfree, samePath_iff.mp hsame,
      (resolve_eq_iff reference' relative').mpr hfree']

/-- A mapping file of a neighbouring layer, seen from a layer with an empty segment in its
reference, and from its own layer. -/
theorem resolve_normalizes_iff_neighbour :
    resolve "layers//road/road.yaml" "../water/./mapping.yaml" =
        resolve "layers/water/water.yaml" "mapping.yaml" ∧
      resolve "layers//road/road.yaml" "../water/./mapping.yaml" =
        "layers/water/mapping.yaml" := by
  have hsame : SamePath (pathFrom "layers//road/road.yaml" "../water/./mapping.yaml")
      (pathFrom "layers/water/water.yaml" "mapping.yaml") := samePath_iff.mpr (by decide)
  have hfree : ClimbsFreely (climbs (segments "../water/./mapping.yaml".toList))
      (directoryOf "layers//road/road.yaml") := ⟨by decide, by decide⟩
  have hfree' : ClimbsFreely (climbs (segments "mapping.yaml".toList))
      (directoryOf "layers/water/water.yaml") := ⟨by decide, by decide⟩
  obtain ⟨-, -, hequal⟩ :=
    resolve_normalizes_iff "layers//road/road.yaml" "../water/./mapping.yaml"
  exact ⟨hequal _ _ hsame hfree hfree', by decide⟩

/-- Out of a directory that ends in a dot, two dots lead nowhere: the reference stays in the
directory, where the same path written without the dot leads out of it. -/
theorem not_normalized_of_dot_in_directory :
    IsNormalForm ["c.yaml".toList] (pathFrom "a/./b.yaml" "../c.yaml") ∧
      resolve "a/./b.yaml" "../c.yaml" = "a/c.yaml" ∧
      SamePath (pathFrom "a/./b.yaml" "../c.yaml") (pathFrom "a/b.yaml" "../c.yaml") ∧
      resolve "a/b.yaml" "../c.yaml" = "c.yaml" := by
  have hform : normalForm (pathFrom "a/./b.yaml" "../c.yaml") = ["c.yaml".toList] := by decide
  refine ⟨?_, by decide, samePath_iff.mpr (by decide), by decide⟩
  rw [← hform]
  exact isNormalForm_normalForm _

end TileSchema.Reference
