import Mathlib.Data.List.Basic
import TurtlePlant.Proofs.Directories

/-!
# Plain paths

A path is plain if all its parts are names, none of them empty, a point or two. It leads inward from where paths start, part by
part (`under_of_locate`), and what it leads to is known by its text: `Place.under` and `Path.parts` are injective.

The directories of a plain path are made along it and nowhere else (`makes_along`), whether or not all of them could be. They
are all made where no file is in the way and nothing refuses the path (`through_makeWay`); then the path can be written
(`write_of_through`). Both go by induction on the names, from the innermost directory to the one around it (`wayTo`).
-/

namespace TurtlePlant

variable {R : Type}

namespace Path

theorem length_lt_of_prefix {path : String} {names : List String} (h : names <+: (parts path).dropLast) :
    names.length < (parts path).length := by
  have hle := h.length_le
  have hpos := List.length_pos_of_ne_nil (parts_ne_nil path)
  rw [List.length_dropLast] at hle
  omega

theorem slash_not_mem_of_mem_split {s part : List Char} (h : part ∈ split s) : '/' ∉ part := by
  induction s generalizing part with
  | nil =>
    rw [split, List.mem_singleton] at h
    simp [h]
  | cons c rest ih =>
    unfold split at h
    split_ifs at h with hc
    · rcases List.mem_cons.mp h with rfl | h
      · exact List.not_mem_nil
      · exact ih h
    · cases hs : split rest with
      | nil => exact absurd hs (split_ne_nil rest)
      | cons first others =>
        rw [hs] at h ih
        rcases List.mem_cons.mp h with rfl | h
        · rw [List.mem_cons, not_or]
          exact ⟨Ne.symm hc, ih List.mem_cons_self⟩
        · exact ih (List.mem_cons_of_mem _ h)

theorem mem_of_mem_split {s part : List Char} (h : part ∈ split s) {c : Char} (hc : c ∈ part) : c ∈ s := by
  induction s generalizing part with
  | nil =>
    rw [split, List.mem_singleton] at h
    rwa [h] at hc
  | cons first rest ih =>
    unfold split at h
    split_ifs at h with hslash
    · rcases List.mem_cons.mp h with rfl | h
      · cases hc
      · exact List.mem_cons_of_mem _ (ih h hc)
    · cases hs : split rest with
      | nil => exact absurd hs (split_ne_nil rest)
      | cons part' others =>
        rw [hs] at h ih
        rcases List.mem_cons.mp h with rfl | h
        · rcases List.mem_cons.mp hc with rfl | hc
          · exact List.mem_cons_self
          · exact List.mem_cons_of_mem _ (ih List.mem_cons_self hc)
        · exact List.mem_cons_of_mem _ (ih (List.mem_cons_of_mem _ h) hc)

theorem split_eq_splitOn (s : List Char) : split s = s.splitOn '/' := by
  have h := List.splitOn_intercalate '/' (fun _ => slash_not_mem_of_mem_split) (split_ne_nil s)
  rw [intercalate_split] at h
  exact h.symm

/-- The parts of a path are what it was put together from. -/
theorem parts_intercalate {names : List String} (hne : names ≠ []) (h : ∀ name ∈ names, '/' ∉ name.toList) :
    parts ("/".intercalate names) = names := by
  have hsplit : split ("/".intercalate names).toList = names.map String.toList := by
    rw [String.toList_intercalate, split_eq_splitOn]
    refine List.splitOn_intercalate '/' ?_ (by simpa using hne)
    simpa using h
  rw [parts, hsplit, List.map_map]
  simp

theorem intercalate_parts (path : String) : "/".intercalate (parts path) = path := by
  have h := intercalate_split path.toList
  apply String.toList_injective
  rw [String.toList_intercalate, parts, List.map_map]
  simpa using h

theorem slash_not_mem_of_mem_parts {path part : String} (h : part ∈ parts path) : '/' ∉ part.toList := by
  obtain ⟨chars, hchars, rfl⟩ := List.mem_map.mp h
  rw [String.toList_ofList]
  exact slash_not_mem_of_mem_split hchars

theorem mem_of_mem_parts {path part : String} (h : part ∈ parts path) {c : Char} (hc : c ∈ part.toList) :
    c ∈ path.toList := by
  obtain ⟨chars, hchars, rfl⟩ := List.mem_map.mp h
  rw [String.toList_ofList] at hc
  exact mem_of_mem_split hchars hc

theorem length_endingIn_le (names : List String) : (endingIn names).length ≤ names.length := by
  induction names with
  | nil => exact Nat.le_refl _
  | cons name before ih =>
    unfold endingIn
    split_ifs
    · exact Nat.le_succ_of_le ih
    · exact Nat.succ_le_succ ih

theorem parts_injective {p q : String} (h : parts p = parts q) : p = q := by
  rw [← intercalate_parts p, h, intercalate_parts]

/-! ## Names -/

/-- A path all of whose parts are names. -/
def IsPlain (path : String) : Prop := ∀ part ∈ parts path, IsName part

instance (path : String) : Decidable (IsPlain path) := inferInstanceAs (Decidable (∀ part ∈ parts path, _))

/-- A path that goes on to another one. -/
def IsDirectoryOf (p q : String) : Prop := parts p <+: parts q ∧ p ≠ q

instance (p q : String) : Decidable (IsDirectoryOf p q) := inferInstanceAs (Decidable (_ ∧ _))

theorem not_isAbsolute {path : String} (h : IsPlain path) : isAbsolute path = false := by
  rw [isAbsolute, decide_eq_false_iff_not]
  intro hhead
  obtain ⟨rest, hrest⟩ := List.head?_eq_some_iff.mp hhead
  have hparts : parts path = "" :: (split rest).map String.ofList := by
    rw [parts, hrest, split, if_pos rfl]
    rfl
  exact (h "" (hparts ▸ List.mem_cons_self)).1 rfl

theorem isPlain_target {path : String} (h : IsPlain path) : IsPlain (Store.target path) := by
  by_cases hending : Store.HasEnding path
  · rwa [Store.target_of_ending hending]
  · intro part hpart
    rw [Store.target_of_no_ending hending, parts_append (by decide)] at hpart
    rcases List.mem_append.mp hpart with hpart | hpart
    · exact h part (List.dropLast_subset _ hpart)
    · rw [List.mem_singleton.mp hpart]
      exact Store.isName_append_ending _

end Path

namespace Place

/-- Where some names lead from a place, the outermost one coming first. -/
def under (p : Place) (names : List String) : Place := names.foldl inner p

theorem ext_names {p q : Place} (h : p.names = q.names) : p = q := by
  obtain ⟨depth, names, hdepth⟩ := p
  obtain ⟨depth', names', hdepth'⟩ := q
  cases h
  cases hdepth
  cases hdepth'
  rfl

theorem names_under (p : Place) (names : List String) : (p.under names).names = names.reverse ++ p.names := by
  induction names generalizing p with
  | nil => rfl
  | cons name rest ih =>
    show ((p.inner name).under rest).names = _
    rw [ih, List.reverse_cons, List.append_assoc]
    rfl

theorem under_injective (p : Place) : Function.Injective p.under := by
  intro names names' h
  have hnames := congrArg Place.names h
  rw [names_under, names_under] at hnames
  exact List.reverse_injective (List.append_cancel_right hnames)

theorem under_concat (p : Place) (names : List String) (name : String) :
    p.under (names ++ [name]) = (p.under names).inner name := List.foldl_concat ..

theorem under_ne_root (p : Place) {names : List String} (h : names ≠ []) : p.under names ≠ .root := by
  intro hroot
  have hnames := (names_under p names).symm.trans (congrArg Place.names hroot)
  exact h (List.reverse_eq_nil_iff.mp (List.append_eq_nil_iff.mp hnames).1)

/-- The text of the way to a place is that of the names that lead there. -/
theorem textFrom?_eq_some_iff {directory place : Place} {text : String} :
    textFrom? directory place = some text ↔
      ∃ names, place = directory.under names ∧ "/".intercalate names = text := by
  have hunder : ∀ names, textFrom? directory (directory.under names) = some ("/".intercalate names) := by
    intro names
    have hdepth : (directory.under names).depth - directory.depth = names.reverse.length := by
      rw [← length_names, names_under, List.length_append, length_names, Nat.add_sub_cancel]
    unfold textFrom?
    rw [hdepth, names_under, List.take_left, List.reverse_reverse,
      if_pos (List.isSuffixOf_iff_suffix.mpr (List.suffix_append _ _))]
  constructor
  · intro h
    by_cases hsuffix : directory.names.isSuffixOf place.names = true
    · obtain ⟨inside, hinside⟩ := List.isSuffixOf_iff_suffix.mp hsuffix
      have hplace : place = directory.under inside.reverse := ext_names (by
        rw [names_under, List.reverse_reverse, hinside])
      rw [hplace, hunder] at h
      exact ⟨_, hplace, Option.some.inj h⟩
    · unfold textFrom? at h
      rw [if_neg hsuffix] at h
      cases h
  · rintro ⟨names, rfl, rfl⟩
    exact hunder names

end Place

namespace Store

open TurtlePlant.Path (IsName IsPlain)

variable {s s' : Store R}

theorem under_of_follow {p q : Place} {parts : List String} (hnames : ∀ part ∈ parts, IsName part)
    (h : s.follow p parts = .ok q) : q = p.under parts := by
  induction parts generalizing p with
  | nil => cases h; rfl
  | cons part rest ih =>
    obtain ⟨p', hstep, hrest⟩ := Turtle.bind_ok h
    rw [ih (fun part hpart => hnames part (List.mem_cons_of_mem _ hpart)) hrest,
      inner_of_isName (hnames part List.mem_cons_self) hstep]
    rfl

theorem start_of_isPlain {path : String} (h : IsPlain path) : s.start path = s.here := by
  rw [start, Path.not_isAbsolute h]
  rfl

/-- **A plain path leads inward**, by all its parts. -/
theorem under_of_locate {path : String} {place : Place} (hplain : IsPlain path) (h : s.locate path = .ok place) :
    place = s.here.under (Path.parts path) := by
  obtain ⟨_, -, hfollow⟩ := Turtle.bind_ok h
  rw [start_of_isPlain hplain] at hfollow
  exact under_of_follow hplain hfollow

/-- Why a part does not lead on. -/
theorem fault_of_step {p : Place} {part : String} {fault : PathFault} (h : s.step p part = .error fault) :
    fault = .nullCharacter ∧ Path.nullCharacter ∈ part.toList ∨ fault = .missing ∨
      fault = .notDirectory ∧ (∃ a, s.get? p = some (.file a)) ∨
      fault = .tooLong ∧ Path.maxNameBytes < part.utf8ByteSize := by
  unfold step at h
  split at h
  next hnull =>
    cases h
    exact .inl ⟨rfl, List.contains_iff_mem.mp hnull⟩
  next =>
    split at h
    · cases h
      exact .inr (.inl rfl)
    next a hfile =>
      cases h
      exact .inr (.inr (.inl ⟨rfl, a, hfile⟩))
    · split_ifs at h with _ _ hlong
      cases h
      exact .inr (.inr (.inr ⟨rfl, hlong⟩))

/-- Where names lead nowhere, there is a first one that does not lead on. -/
theorem exists_step_of_follow {p : Place} {parts : List String} {fault : PathFault}
    (hnames : ∀ part ∈ parts, IsName part) (h : s.follow p parts = .error fault) :
    ∃ before part, before ++ [part] <+: parts ∧ s.step (p.under before) part = .error fault := by
  induction parts generalizing p with
  | nil => cases h
  | cons part rest ih =>
    rw [follow] at h
    cases hstep : s.step p part with
    | error fault' =>
      rw [hstep] at h
      cases h
      exact ⟨[], part, List.prefix_append [part] rest, hstep⟩
    | ok p' =>
      rw [hstep] at h
      obtain ⟨before, last, hinitial, hlast⟩ := ih (fun part hpart => hnames part (List.mem_cons_of_mem _ hpart)) h
      rw [inner_of_isName (hnames part List.mem_cons_self) hstep] at hlast
      exact ⟨part :: before, last, List.cons_prefix_cons.mpr ⟨rfl, hinitial⟩, hlast⟩

/-! ## The way to a plain path -/

/-- The making of directories, each in the one that comes behind it in the list. -/
def wayTo (s : Store R) : List String → Way R
  | [] => ⟨s, s.here, .ok ()⟩
  | [path] => (Way.mk s s.here (.ok ())).arrive (s.locate path)
  | path :: around => (wayTo s around).next path

theorem foldl_next_eq (s : Store R) {paths : List String} {outermost : String} {rest : List String}
    (h : paths.reverse = outermost :: rest) :
    rest.foldl Way.next ((Way.mk s s.here (.ok ())).arrive (s.locate outermost)) = wayTo s paths := by
  induction paths generalizing rest with
  | nil => cases h
  | cons path around ih =>
    rw [List.reverse_cons] at h
    cases haround : around.reverse with
    | nil =>
      rw [haround] at h
      cases h
      rw [List.reverse_eq_nil_iff.mp haround]
      rfl
    | cons outermost' rest' =>
      rw [haround, List.cons_append] at h
      obtain ⟨rfl, rfl⟩ := List.cons.inj h
      rw [List.foldl_concat, ih haround]
      cases around with
      | nil => cases haround
      | cons _ _ => rfl

/-- The way to a path is that to the directories which are missing. -/
theorem makeWay_eq (s : Store R) (path : String) :
    s.makeWay path =
      if Path.maxNesting < (s.missing (Path.directories path)).length then (s, .error .tooDeep)
      else ((wayTo s (s.missing (Path.directories path))).store, (wayTo s (s.missing (Path.directories path))).made) := by
  have hlength : (s.missing (Path.directories path)).reverse.length = (s.missing (Path.directories path)).length :=
    List.length_reverse
  unfold makeWay
  split
  next hnil =>
    rw [List.reverse_eq_nil_iff.mp hnil]
    rfl
  next outermost rest hcons =>
    rw [hcons, List.length_cons] at hlength
    simp only [← foldl_next_eq s hcons, ← hlength, Nat.lt_add_one_iff]

theorem missing_isPrefix (s : Store R) (paths : List String) : s.missing paths <+: paths := by
  cases paths with
  | nil => exact List.prefix_rfl
  | cons path around => exact List.cons_prefix_cons.mpr ⟨rfl, List.takeWhile_prefix _⟩

theorem ne_occupied_of_step {p : Place} {part : String} : s.step p part ≠ .error .occupied := by
  unfold step
  intro h
  split at h
  · cases h
  · split at h
    · cases h
    · cases h
    · split_ifs at h
      all_goals cases h

theorem ne_occupied_of_bind {α β : Type} {r : Except PathFault α} {f : α → Except PathFault β}
    (hr : r ≠ .error .occupied) (hf : ∀ a, f a ≠ .error .occupied) : r >>= f ≠ .error .occupied := by
  cases r with
  | error fault => exact fun h => hr (congrArg Except.error (Except.error.inj h))
  | ok a => exact hf a

theorem ne_occupied_of_check {path : String} : Path.check path ≠ .error .occupied := by
  unfold Path.check
  intro h
  split_ifs at h
  all_goals cases h

theorem ne_occupied_of_follow {p : Place} {parts : List String} : s.follow p parts ≠ .error .occupied := by
  induction parts generalizing p with
  | nil => exact fun h => by cases h
  | cons part rest ih => exact ne_occupied_of_bind ne_occupied_of_step fun _ => ih

/-- One has arrived, be it where a file stands. -/
def Way.Arrived (w : Way R) : Prop := w.made = .ok () ∨ w.made = .error .occupied

theorem place_of_arrived {w : Way R} {r : Except PathFault Place} (hr : r ≠ .error .occupied)
    (h : (w.arrive r).Arrived) : r = .ok (w.arrive r).place := by
  cases r with
  | error fault =>
    rcases h with h | h
    · cases h
    · cases h
      exact absurd rfl hr
  | ok place =>
    unfold Way.arrive
    dsimp only
    split <;> rfl

theorem next_of_arrived {w : Way R} (h : w.Arrived) {path : String} (hlast : Path.lastPart path ≠ ".") :
    w.next path = w.arrive (do
      Path.check path
      w.store.step w.place (Path.lastPart path)) := by
  unfold Way.next
  rcases h with h | h <;> simp only [h, if_neg hlast]

theorem next_of_not_arrived {w : Way R} (h : ¬ w.Arrived) (path : String) : w.next path = w := by
  unfold Way.next
  split
  next hmade => exact absurd (.inl hmade) h
  next hmade => exact absurd (.inr hmade) h
  next => rfl

/-- The places of the directories that names lead through, the last name included. -/
def Along (p : Place) (names : List String) (place : Place) : Prop :=
  ∃ ns, ns ≠ [] ∧ ns <+: names ∧ place = p.under ns

theorem Along.mono {p : Place} {names names' : List String} (h : names <+: names') {place : Place} :
    Along p names place → Along p names' place :=
  fun ⟨ns, hne, hinitial, hplace⟩ => ⟨ns, hne, hinitial.trans h, hplace⟩

theorem Makes.mono {among among' : Place → Prop} (h : ∀ place, among place → among' place) (hs : Makes among s s') :
    Makes among' s s' :=
  ⟨hs.here, fun place => (hs.get? place).imp_right fun ⟨hmem, hnew⟩ => ⟨h place hmem, hnew⟩⟩

/-- How the way to directories with names stands when they were made, or were tried to be made. -/
structure Way.Reached (s : Store R) (names : List String) (w : Way R) : Prop where
  place : w.Arrived → w.place = s.here.under names
  makes : Makes (Along s.here names) s w.store

theorem reached_arrive {w : Way R} {names : List String} (hnames : names ≠ [])
    (hw : Makes (Along s.here names) s w.store) {r : Except PathFault Place} (hr : r ≠ .error .occupied)
    (hplace : ∀ place, r = .ok place → place = s.here.under names) : (w.arrive r).Reached s names where
  place harrived := hplace _ (place_of_arrived hr harrived)
  makes := hw.trans (makes_arrive w fun place hok => hplace place hok ▸ ⟨names, hnames, List.prefix_rfl, rfl⟩)

/-- **One more name.** -/
theorem reached_next {w : Way R} {before : List String} {name path : String} (h : w.Reached s before)
    (hname : IsName name) (hlast : Path.lastPart path = name) : (w.next path).Reached s (before ++ [name]) := by
  have hmakes : Makes (Along s.here (before ++ [name])) s w.store :=
    h.makes.mono fun place => Along.mono (List.prefix_append before [name])
  by_cases harrived : w.Arrived
  · rw [next_of_arrived harrived (by rw [hlast]; exact hname.2.1), hlast, h.place harrived]
    refine reached_arrive (by simp) hmakes ?_ fun place hok => ?_
    · exact ne_occupied_of_bind ne_occupied_of_check fun _ => ne_occupied_of_step
    · obtain ⟨_, -, hstep⟩ := Turtle.bind_ok hok
      rw [inner_of_isName hname hstep, Place.under_concat]
  · rw [next_of_not_arrived harrived]
    exact ⟨fun h => absurd h harrived, hmakes⟩

theorem forall_mem_concat {α : Type} {property : α → Prop} {l : List α} {a : α} (hl : ∀ x ∈ l, property x)
    (ha : property a) : ∀ x ∈ l ++ [a], property x :=
  List.forall_mem_append.mpr ⟨hl, List.forall_mem_singleton.mpr ha⟩

/-- What a path that was put together from names is made of. -/
theorem parts_of_names {names : List String} (hnames : ∀ name ∈ names, '/' ∉ name.toList) {name : String}
    (hname : '/' ∉ name.toList) :
    Path.parts ("/".intercalate (name :: names).reverse) = names.reverse ++ [name] := by
  rw [List.reverse_cons]
  refine Path.parts_intercalate (by simp) (forall_mem_concat (fun part hpart => ?_) hname)
  exact hnames part (List.mem_reverse.mp hpart)

/-- **The way to directories with names goes by their names.** -/
theorem reached_wayTo (s : Store R) {names : List String} (hnames : ∀ name ∈ names, IsName name ∧ '/' ∉ name.toList)
    {paths : List String} (hpaths : paths <+: Path.endingIn names) (hne : paths ≠ []) :
    (wayTo s paths).Reached s names.reverse := by
  induction names generalizing paths with
  | nil =>
    rw [Path.endingIn, List.prefix_nil] at hpaths
    exact absurd hpaths hne
  | cons name before ih =>
    obtain ⟨⟨hname, hslash⟩, hbefore⟩ := List.forall_mem_cons.mp hnames
    have hparts := parts_of_names (fun part hpart => (hbefore part hpart).2) hslash
    rw [Path.endingIn, if_neg (by simpa using hname.1)] at hpaths
    rw [List.reverse_cons]
    match paths, hne with
    | path :: around, _ =>
      obtain ⟨rfl, haround⟩ := List.cons_prefix_cons.mp hpaths
      match around with
      | [] =>
        refine reached_arrive (by simp) (.refl s) ?_ fun place hplace => ?_
        · exact ne_occupied_of_bind ne_occupied_of_check fun _ => ne_occupied_of_follow
        · have hplain : IsPlain ("/".intercalate (name :: before).reverse) := by
            rw [IsPlain, hparts]
            exact forall_mem_concat (fun part hpart => (hbefore part (List.mem_reverse.mp hpart)).1) hname
          rw [under_of_locate hplain hplace, hparts]
      | path' :: around' =>
        refine reached_next (ih hbefore haround (by simp)) hname ?_
        rw [Path.lastPart, hparts, List.getLast?_concat, Option.getD_some]

/-- **Directories are made along a plain path.** -/
theorem makes_along {path : String} (h : IsPlain path) :
    Makes (Along s.here (Path.parts path).dropLast) s (s.makeWay path).1 := by
  have hnames : ∀ name ∈ (Path.parts path).dropLast.reverse, IsName name ∧ '/' ∉ name.toList := by
    intro name hname
    have hmem := List.dropLast_subset _ (List.mem_reverse.mp hname)
    exact ⟨h name hmem, Path.slash_not_mem_of_mem_parts hmem⟩
  rw [makeWay_eq]
  split_ifs with hdeep
  · exact .refl s
  · by_cases hnil : s.missing (Path.directories path) = []
    · rw [hnil]
      exact .refl s
    · have hreached := reached_wayTo s hnames (missing_isPrefix s _) hnil
      rw [List.reverse_reverse] at hreached
      exact hreached.makes

/-! ## The way made to its end -/

/-- A name that can be used: it goes on from every directory. -/
structure Fits (name : String) : Prop where
  isName : IsName name
  plain : '/' ∉ name.toList ∧ Path.nullCharacter ∉ name.toList
  short : name.utf8ByteSize ≤ Path.maxNameBytes

theorem step_of_fits {p : Place} {name : String} (hname : Fits name) (hp : s.get? p = some .directory) :
    s.step p name = .ok (p.inner name) := by
  have hnull : name.toList.contains Path.nullCharacter = false := by simpa using hname.plain.2
  have hstay : ¬ (name = "" ∨ name = ".") := not_or.mpr ⟨hname.isName.1, hname.isName.2.1⟩
  unfold step
  rw [hnull, hp]
  simp only [Bool.false_eq_true, if_false, if_neg hstay, if_neg hname.isName.2.2, if_neg (Nat.not_lt.mpr hname.short)]

/-- A path of directories that are all there leads on by one more name. -/
theorem follow_concat {p : Place} {before : List String} (hbefore : s.follow p before = .ok (p.under before))
    {name : String} (hstep : s.step (p.under before) name = .ok ((p.under before).inner name)) :
    s.follow p (before ++ [name]) = .ok (p.under (before ++ [name])) := by
  rw [follow_append, hbefore, Place.under_concat]
  exact (follow_singleton s _ name).trans hstep

/-- The directories along some names are all there. -/
structure Through (s : Store R) (names : List String) : Prop where
  follow : s.follow s.here names = .ok (s.here.under names)
  directory : s.get? (s.here.under names) = some .directory

/-- Where a name leads on from directories that are all there, a directory is there or is made, unless a file is there. -/
theorem through_arrive {w : Way R} {before : List String} (h : Through w.store before) {name : String}
    (hname : Fits name) (hfile : ∀ a, w.store.get? (w.store.here.under (before ++ [name])) ≠ some (.file a)) :
    (w.arrive (w.store.step (w.store.here.under before) name)).made = .ok () ∧
      Through (w.arrive (w.store.step (w.store.here.under before) name)).store (before ++ [name]) := by
  have hstep := step_of_fits hname h.directory
  have hfollow := follow_concat h.follow hstep
  have hnames : before ++ [name] ≠ [] := by simp
  have hroot := w.store.here.under_ne_root hnames
  rw [← Place.under_concat] at hstep
  rw [hstep]
  unfold Way.arrive
  dsimp only
  split
  next hnone =>
    have hstays : Stays w.store (w.store.set (w.store.here.under (before ++ [name])) .directory) :=
      stays_set (by rw [hnone]; simp) _
    refine ⟨rfl, follow_of_stays hstays hfollow, ?_⟩
    show (w.store.set (w.store.here.under (before ++ [name])) .directory).get?
      (w.store.here.under (before ++ [name])) = some .directory
    rw [get?_set _ hroot, if_pos rfl]
  next hdirectory => exact ⟨rfl, hfollow, hdirectory⟩
  next a hfile' => exact absurd hfile' (hfile a)

/-- Where a path stands and no file is, the directories are all there. -/
theorem through_of_stands {path : String} (hplain : IsPlain path)
    (hfile : ∀ a, s.get? (s.here.under (Path.parts path)) ≠ some (.file a)) (h : s.stands path = true) :
    Through s (Path.parts path) := by
  unfold stands at h
  cases hlocate : s.locate path with
  | error fault =>
    rw [hlocate] at h
    cases h
  | ok place =>
    rw [hlocate] at h
    obtain rfl := under_of_locate hplain hlocate
    obtain ⟨_, -, hfollow⟩ := Turtle.bind_ok hlocate
    rw [start_of_isPlain hplain] at hfollow
    refine ⟨hfollow, ?_⟩
    obtain ⟨e, he⟩ := Option.isSome_iff_exists.mp h
    cases e with
    | directory => exact he
    | file a => exact absurd he (hfile a)

theorem check_eq_ok_iff {path : String} :
    Path.check path = .ok () ↔
      Path.nullCharacter ∉ path.toList ∧ path ≠ "" ∧ path.utf8ByteSize < Path.maxBytes := by
  unfold Path.check
  simp only [List.contains_iff_mem, String.isEmpty_iff]
  split_ifs with hnull hempty hlong
  · exact ⟨nofun, fun h => absurd hnull h.1⟩
  · exact ⟨nofun, fun h => absurd hempty h.2.1⟩
  · exact ⟨nofun, fun h => absurd h.2.2 (Nat.not_lt.mpr hlong)⟩
  · exact ⟨fun _ => ⟨hnull, hempty, Nat.not_le.mp hlong⟩, fun _ => rfl⟩

/-- The start of a path can be used as far as the text goes. -/
theorem check_of_append {path more : String} (hne : path ≠ "") (h : Path.check (path ++ more) = .ok ()) :
    Path.check path = .ok () := by
  obtain ⟨hnull, -, hlong⟩ := check_eq_ok_iff.mp h
  rw [String.toList_append, List.mem_append, not_or] at hnull
  rw [String.utf8ByteSize_append] at hlong
  exact check_eq_ok_iff.mpr ⟨hnull.1, hne, by omega⟩

/-- From directories that are all there a path leads on by its last part. -/
theorem locate_of_through {before : List String} (h : Through s before) {name path : String}
    (hparts : Path.parts path = before ++ [name]) (hplain : IsPlain path) (hcheck : Path.check path = .ok ()) :
    s.locate path = s.step (s.here.under before) name := by
  have hlast : Path.lastPart path = name := by
    rw [Path.lastPart, hparts, List.getLast?_concat, Option.getD_some]
  rw [locate_eq, hcheck, start_of_isPlain hplain, hparts, List.dropLast_concat, h.follow, hlast]
  rfl

section Names

variable {names : List String} (hfits : ∀ name ∈ names, Fits name)
include hfits

/-- A path that is put together from names. -/
theorem plain_of_fits {name : String} (hname : Fits name) :
    Path.parts ("/".intercalate (name :: names).reverse) = names.reverse ++ [name] ∧
      IsPlain ("/".intercalate (name :: names).reverse) := by
  have hparts := parts_of_names (fun part hpart => (hfits part hpart).plain.1) hname.plain.1
  refine ⟨hparts, ?_⟩
  rw [IsPlain, hparts]
  exact forall_mem_concat (fun part hpart => (hfits part (List.mem_reverse.mp hpart)).isName) hname.isName

/-- If a path that is put together from names can be used, so can that of the directory it names something in. -/
theorem check_of_cons {name : String} (hne : names ≠ [])
    (h : Path.check ("/".intercalate (name :: names).reverse) = .ok ()) :
    Path.check ("/".intercalate names.reverse) = .ok () := by
  obtain ⟨inner, around, rfl⟩ := List.exists_cons_of_ne_nil hne
  obtain ⟨hinner, haround⟩ := List.forall_mem_cons.mp hfits
  obtain ⟨hparts, hplain⟩ := plain_of_fits haround hinner
  rw [List.reverse_cons, String.intercalate_append_of_ne_nil (by simp) (by simp), String.append_assoc] at h
  refine check_of_append (fun hempty => ?_) h
  rw [hempty] at hplain
  exact (hplain "" List.mem_cons_self).1 rfl

/-- If the innermost of some directories stands, they are all there. -/
theorem through_of_head (hhere : s.get? s.here = some .directory)
    (hfile : ∀ place a, Along s.here names.reverse place → s.get? place ≠ some (.file a))
    (h : ∀ path ∈ (Path.endingIn names).head?, s.stands path = true) : Through s names.reverse := by
  cases names with
  | nil => exact ⟨rfl, hhere⟩
  | cons inner around =>
    obtain ⟨hinner, haround⟩ := List.forall_mem_cons.mp hfits
    obtain ⟨hparts, hplain⟩ := plain_of_fits haround hinner
    rw [Path.endingIn, if_neg (by simpa using hinner.isName.1), List.head?_cons] at h
    rw [List.reverse_cons] at hfile ⊢
    rw [← hparts]
    refine through_of_stands hplain (fun a => hfile _ a ⟨_, by simp, List.prefix_rfl, ?_⟩) (h _ rfl)
    rw [hparts]

/-- **The directories along some names are made** where no file is in the way. -/
theorem through_wayTo (hhere : s.get? s.here = some .directory)
    (hcheck : Path.check ("/".intercalate names.reverse) = .ok ())
    (hfile : ∀ place a, Along s.here names.reverse place → s.get? place ≠ some (.file a)) {paths rest : List String}
    (hpaths : paths ++ rest = Path.endingIn names) (hne : paths ≠ []) (hrest : ∀ path ∈ rest.head?, s.stands path = true) :
    (wayTo s paths).made = .ok () ∧ Through (wayTo s paths).store names.reverse := by
  induction names generalizing paths with
  | nil => exact absurd (List.append_eq_nil_iff.mp hpaths).1 hne
  | cons name before ih =>
    obtain ⟨hname, hbefore⟩ := List.forall_mem_cons.mp hfits
    obtain ⟨hparts, hplain⟩ := plain_of_fits hbefore hname
    have hfile' : ∀ place a, Along s.here before.reverse place → s.get? place ≠ some (.file a) :=
      fun place a h => hfile place a (h.mono (by simp))
    have hnew : ∀ a, s.get? (s.here.under (before.reverse ++ [name])) ≠ some (.file a) :=
      fun a => hfile _ a ⟨_, by simp, by simp, rfl⟩
    rw [Path.endingIn, if_neg (by simpa using hname.isName.1)] at hpaths
    rw [List.reverse_cons]
    match paths, hne with
    | path :: around, _ =>
      rw [List.cons_append] at hpaths
      obtain ⟨rfl, haround⟩ := List.cons.inj hpaths
      match around with
      | [] =>
        rw [List.nil_append] at haround
        have hthrough := through_of_head hbefore hhere hfile' (haround ▸ hrest)
        rw [wayTo, locate_of_through hthrough hparts hplain hcheck]
        exact through_arrive (w := ⟨s, s.here, .ok ()⟩) hthrough hname hnew
      | path' :: around' =>
        have hbefore' : before ≠ [] := by
          rintro rfl
          cases haround
        obtain ⟨hmade, hthrough⟩ := ih hbefore (check_of_cons hbefore hbefore' hcheck) hfile' haround (by simp)
        have hnames : ∀ name ∈ before, IsName name ∧ '/' ∉ name.toList :=
          fun part hpart => ⟨(hbefore part hpart).isName, (hbefore part hpart).plain.1⟩
        have hreached := reached_wayTo s hnames ⟨rest, haround⟩ (by simp)
        have hhere' := hreached.makes.here
        have hlast : Path.lastPart ("/".intercalate (name :: before).reverse) = name := by
          rw [Path.lastPart, hparts, List.getLast?_concat, Option.getD_some]
        show (Way.next (wayTo s (path' :: around')) _).made = _ ∧ Through (Way.next (wayTo s (path' :: around')) _).store _
        rw [next_of_arrived (.inl hmade) (by rw [hlast]; exact hname.isName.2.1), hcheck, hlast,
          hreached.place (.inl hmade), ← hhere']
        refine through_arrive hthrough hname fun a => ?_
        rw [hhere']
        exact fun h => hnew a ((hreached.makes.file_iff _ a).mp h)

end Names

/-- A path that can be used: it is plain, and so short that nothing refuses it. -/
structure Usable (path : String) : Prop where
  isPlain : IsPlain path
  check : Path.check path = .ok ()
  short : ∀ part ∈ Path.parts path, part.utf8ByteSize ≤ Path.maxNameBytes

theorem Usable.fits {path : String} (h : Usable path) : ∀ part ∈ Path.parts path, Fits part := by
  intro part hpart
  obtain ⟨hnull, -, -⟩ := check_eq_ok_iff.mp h.check
  have hnull' : Path.nullCharacter ∉ part.toList := fun hmem => hnull (Path.mem_of_mem_parts hpart hmem)
  exact ⟨h.isPlain part hpart, ⟨Path.slash_not_mem_of_mem_parts hpart, hnull'⟩, h.short part hpart⟩

/-- What is missing of some directories ends where one stands. -/
theorem missing_append (s : Store R) (paths : List String) :
    ∃ rest, s.missing paths ++ rest = paths ∧ ∀ path ∈ rest.head?, s.stands path = true := by
  cases paths with
  | nil => exact ⟨[], rfl, nofun⟩
  | cons path around =>
    refine ⟨around.dropWhile fun outer => !s.stands outer, ?_, fun outer houter => ?_⟩
    · rw [missing, List.cons_append, List.takeWhile_append_dropWhile]
    · have hstop := List.head?_dropWhile_not (fun outer => !s.stands outer) around
      rw [houter] at hstop
      simpa using hstop

/-- **The way to a usable path is made** where no file is in the way and not too many directories are missing. -/
theorem through_makeWay {path : String} (h : Usable path) (hhere : s.get? s.here = some .directory)
    (hdeep : (Path.parts path).length ≤ Path.maxNesting)
    (hfile : ∀ place a, Along s.here (Path.parts path).dropLast place → s.get? place ≠ some (.file a)) :
    (s.makeWay path).2 = .ok () ∧ Through (s.makeWay path).1 (Path.parts path).dropLast := by
  obtain ⟨rest, hmissing, hrest⟩ := missing_append s (Path.directories path)
  have hfits : ∀ part ∈ (Path.parts path).dropLast.reverse, Fits part := fun part hpart =>
    h.fits part (List.dropLast_subset _ (List.mem_reverse.mp hpart))
  have hlength : (s.missing (Path.directories path)).length ≤ Path.maxNesting := by
    have hinitial := (missing_isPrefix s (Path.directories path)).length_le
    have hdirectories := Path.length_endingIn_le (Path.parts path).dropLast.reverse
    rw [List.length_reverse, List.length_dropLast] at hdirectories
    unfold Path.directories at hinitial ⊢
    omega
  rw [makeWay_eq, if_neg (Nat.not_lt.mpr hlength)]
  rw [← List.reverse_reverse (Path.parts path).dropLast] at hfile ⊢
  by_cases hnil : s.missing (Path.directories path) = []
  · rw [hnil, List.nil_append] at hmissing
    rw [hnil]
    exact ⟨rfl, through_of_head hfits hhere hfile (by rw [← Path.directories, ← hmissing]; exact hrest)⟩
  · have hnames : (Path.parts path).dropLast.reverse ≠ [] := by
      intro hnames
      rw [Path.directories, hnames] at hnil
      exact hnil rfl
    have hcheck : Path.check ("/".intercalate (Path.lastPart path :: (Path.parts path).dropLast.reverse).reverse) =
        .ok () := by
      rw [List.reverse_cons, List.reverse_reverse, ← Path.parts_eq, Path.intercalate_parts]
      exact h.check
    exact through_wayTo hfits hhere (check_of_cons hfits hnames hcheck) hfile hmissing hnil hrest

/-- A path and its target name something in one directory. -/
theorem parts_target (path : String) :
    ∃ name, Path.parts (target path) = (Path.parts path).dropLast ++ [name] ∧
      (Path.lastPart path).utf8ByteSize ≤ name.utf8ByteSize := by
  by_cases hending : HasEnding path
  · rw [target_of_ending hending]
    exact ⟨_, Path.parts_eq path, Nat.le_refl _⟩
  · rw [target_of_no_ending hending]
    refine ⟨_, Path.parts_append (by decide) path, ?_⟩
    rw [String.utf8ByteSize_append]
    exact Nat.le_add_right _ _

/-- If the target of a plain path can be used, so can the path. -/
theorem usable_of_target {path : String} (hplain : IsPlain path) (h : Usable (target path)) : Usable path := by
  obtain ⟨name, hparts, hsize⟩ := parts_target path
  refine ⟨hplain, ?_, fun part hpart => ?_⟩
  · by_cases hending : HasEnding path
    · exact target_of_ending hending ▸ h.check
    · have hcheck := h.check
      rw [target_of_no_ending hending] at hcheck
      refine check_of_append ?_ hcheck
      rintro rfl
      exact (hplain "" List.mem_cons_self).1 rfl
  · have hshort := h.short
    rw [hparts] at hshort
    rw [Path.parts_eq, List.mem_append, List.mem_singleton] at hpart
    rcases hpart with hpart | rfl
    · exact hshort part (List.mem_append_left _ hpart)
    · exact Nat.le_trans hsize (hshort name (by simp))

/-- **What is written to the target of a usable path is written there**, unless a directory stands in its place. -/
theorem write_of_through {path : String} (h : Usable (target path))
    (hthrough : Through s (Path.parts path).dropLast)
    (hplace : s.get? (s.here.under (Path.parts (target path))) ≠ some .directory) (a : Archive R) :
    ∃ s', s.write (target path) a = .ok s' := by
  obtain ⟨name, hname, -⟩ := parts_target path
  have hfits := h.fits name (by rw [hname]; simp)
  have hlocate := locate_of_through hthrough hname h.isPlain h.check
  rw [step_of_fits hfits hthrough.directory, ← Place.under_concat, ← hname] at hlocate
  refine ⟨s.set (s.here.under (Path.parts (target path))) (.file a), ?_⟩
  unfold write
  rw [hlocate]
  cases hentry : s.get? (s.here.under (Path.parts (target path))) with
  | none => simp only [bind, Except.bind, hentry]
  | some e =>
    cases e with
    | directory => exact absurd hentry hplace
    | file _ => simp only [bind, Except.bind, hentry]

/-- A name that is too long leads nowhere, not even to what is missing. -/
theorem load_of_long {name : String} (hhere : s.get? s.here = some .directory) (hparts : Path.parts name = [name])
    (hname : IsName name) (hcheck : Path.check name = .ok ()) (hlong : Path.maxNameBytes < name.utf8ByteSize) :
    s.load name = .error (.file .tooLong name) := by
  have hplain : IsPlain name := by
    rw [IsPlain, hparts]
    exact List.forall_mem_singleton.mpr hname
  have hnull : name.toList.contains Path.nullCharacter = false := by
    simpa using (check_eq_ok_iff.mp hcheck).1
  have hstep : s.step s.here name = .error .tooLong := by
    have hstay : ¬ (name = "" ∨ name = ".") := not_or.mpr ⟨hname.1, hname.2.1⟩
    unfold step
    rw [hnull, hhere]
    simp only [Bool.false_eq_true, if_false, if_neg hstay, if_neg hname.2.2, if_pos hlong]
  have hlocate : s.locate name = .error .tooLong := by
    unfold locate
    rw [hcheck, start_of_isPlain hplain, hparts]
    exact (follow_singleton s s.here name).trans hstep
  unfold load read
  rw [hlocate]
  rfl

/-! ## The files in a directory -/

/-- **The paths from a directory are those of the files in it.** -/
theorem mem_pathsFrom_iff {directory : Place} {path : String} (hpath : path ≠ "") :
    path ∈ s.pathsFrom directory ↔
      ∃ names a, names ≠ [] ∧ "/".intercalate names = path ∧ s.get? (directory.under names) = some (.file a) := by
  have hentry : ∀ {names a}, names ≠ [] →
      ((directory.under names, Entry.file a) ∈ s.entries ↔ s.get? (directory.under names) = some (.file a)) := by
    intro names a hne
    rw [mem_iff_lookup s.nodup, get?, if_neg (directory.under_ne_root hne)]
  unfold pathsFrom files
  rw [List.mem_mergeSort, List.mem_filterMap]
  constructor
  · rintro ⟨⟨place, a⟩, hmem, htext⟩
    obtain ⟨names, rfl, rfl⟩ := Place.textFrom?_eq_some_iff.mp htext
    have hne : names ≠ [] := by
      rintro rfl
      exact hpath rfl
    refine ⟨names, a, hne, rfl, (hentry hne).mp ?_⟩
    obtain ⟨⟨place', e⟩, hmem', hfile⟩ := List.mem_filterMap.mp hmem
    cases e with
    | directory => cases hfile
    | file a' => cases hfile; exact hmem'
  · rintro ⟨names, a, hne, rfl, hget⟩
    refine ⟨(directory.under names, a), List.mem_filterMap.mpr ⟨_, (hentry hne).mpr hget, rfl⟩, ?_⟩
    exact Place.textFrom?_eq_some_iff.mpr ⟨names, rfl, rfl⟩

end Store

end TurtlePlant
