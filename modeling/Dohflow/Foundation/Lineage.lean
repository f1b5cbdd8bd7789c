/-
This file follows links between items: forwards along each item's one link, and backwards
to every item that a link leads from.

An item is looked up by its key and links to at most one key. The forward walk ends where
a link is missing, leads nowhere or returns; the backward search ends at the first item
that answers. What both find is said with the links alone (`mem_follow_iff`,
`searchBack_some`, `searchBack_none`).
-/

import Mathlib.Data.List.Nodup
import Mathlib.Logic.Relation

namespace Lineage

variable {Item Key Answer : Type} [DecidableEq Key]

section

variable (items : List Item) (key : Item → Key) (link : Item → Option Key)

/-- How many items have not been seen. -/
def unseen (seen : List Key) : Nat := items.countP fun item => key item ∉ seen

variable {items key}

theorem find_key {current : Key} {item : Item}
    (found : items.find? (fun item => key item = current) = some item) :
    item ∈ items ∧ key item = current := by
  have same := List.find?_some found
  rw [decide_eq_true_eq] at same
  exact ⟨List.mem_of_find?_eq_some found, same⟩

theorem unseen_cons_le (seen : List Key) (current : Key) :
    unseen items key (current :: seen) ≤ unseen items key seen := by
  refine List.countP_mono_left fun item _ fresh => ?_
  simp only [decide_eq_true_eq, List.mem_cons, not_or] at fresh ⊢
  exact fresh.2

theorem unseen_cons_lt {seen : List Key} {item : Item} (member : item ∈ items)
    (fresh : key item ∉ seen) : unseen items key (key item :: seen) < unseen items key seen := by
  obtain ⟨before, after, rfl⟩ := List.append_of_mem member
  have early : unseen before key (key item :: seen) ≤ unseen before key seen :=
    unseen_cons_le seen (key item)
  have late : unseen after key (key item :: seen) ≤ unseen after key seen :=
    unseen_cons_le seen (key item)
  simp only [unseen, List.countP_append, List.countP_cons, fresh, List.mem_cons, true_or,
    not_true_eq_false, not_false_eq_true, decide_true, decide_false, if_true] at early late ⊢
  simp only [Bool.false_eq_true, if_false]
  omega

variable (items key)

/-- The items after one, along the links. -/
def follow (seen : List Key) : Option Key → List Item
  | none => []
  | some current =>
    if _fresh : current ∈ seen then []
    else
      match _found : items.find? fun item => key item = current with
      | none => []
      | some item => item :: follow (current :: seen) (link item)
termination_by unseen items key seen
decreasing_by
  obtain ⟨member, rfl⟩ := find_key _found
  exact unseen_cons_lt member _fresh

variable (answer : Item → Option Answer)

/-- Look at items that lead to one: the first one that answers ends the search, and the others
are put on the stack once each. -/
def look : List Item → List Key × List Key → Except Answer (List Key × List Key)
  | [], progress => .ok progress
  | item :: rest, (seen, stack) =>
    if key item ∈ seen then look rest (seen, stack)
    else
      match answer item with
      | some answer => .error answer
      | none => look rest (key item :: seen, key item :: stack)

/-- The items with a link to a key. -/
def parents (current : Key) : List Item := items.filter fun item => link item = some current

theorem remaining_look {part : List Item} (members : ∀ item ∈ part, item ∈ items)
    {progress after : List Key × List Key} (looked : look key answer part progress = .ok after) :
    2 * unseen items key after.1 + after.2.length ≤
      2 * unseen items key progress.1 + progress.2.length := by
  induction part generalizing progress with
  | nil =>
    obtain rfl : progress = after := by simpa [look] using looked
    exact Nat.le_refl _
  | cons item rest inductionHypothesis =>
    obtain ⟨seen, stack⟩ := progress
    have others : ∀ item ∈ rest, item ∈ items := fun other inside =>
      members other (List.mem_cons_of_mem _ inside)
    rw [look] at looked
    split at looked
    · exact inductionHypothesis others looked
    · next fresh =>
      cases answers : answer item with
      | some found => simp [answers] at looked
      | none =>
        simp only [answers] at looked
        have later := inductionHypothesis others looked
        have fewer := unseen_cons_lt (members item List.mem_cons_self) fresh
        simp only [List.length_cons] at later ⊢
        omega

/-- Look back from the items on the stack, the last one put there first, until one answers. -/
def searchBack : List Key × List Key → Option Answer
  | (_, []) => none
  | (seen, current :: stack) =>
    match _looked : look key answer (parents items link current) (seen, stack) with
    | .error answer => some answer
    | .ok progress => searchBack progress
termination_by progress => 2 * unseen items key progress.1 + progress.2.length
decreasing_by
  have fewer := remaining_look items key answer
    (fun _ inside => (List.mem_filter.mp inside).1) _looked
  simp only [List.length_cons] at fewer ⊢
  omega

/-- An item with one key links to the other. -/
def Linked (one other : Key) : Prop := ∃ item ∈ items, key item = one ∧ link item = some other

/-- Links lead from one key to the other. -/
def Reaches : Key → Key → Prop := Relation.ReflTransGen (Linked items key link)

end

/-! ### Walking forwards -/

variable {items : List Item} {key : Item → Key} {link : Item → Option Key}
  {answer : Item → Option Answer}
variable {seen : List Key} {progress : List Key × List Key} {item : Item} {current : Option Key}
  {part : List Item} {found : Answer}

theorem follow_none (seen : List Key) : follow items key link seen none = [] := by
  rw [follow]

theorem follow_seen {current : Key} (returned : current ∈ seen) :
    follow items key link seen (some current) = [] := by
  rw [follow, dif_pos returned]

theorem follow_missing {current : Key}
    (missing : items.find? (fun item => key item = current) = none) :
    follow items key link seen (some current) = [] := by
  rw [follow]
  split
  · rfl
  · split
    · rfl
    · next item found => simp [missing] at found

theorem follow_found (fresh : key item ∉ seen)
    (found : items.find? (fun other => key other = key item) = some item) :
    follow items key link seen (some (key item)) =
      item :: follow items key link (key item :: seen) (link item) := by
  rw [follow, dif_neg fresh]
  split
  · next missing => simp [found] at missing
  · next other same =>
    obtain rfl := Option.some.inj (found.symm.trans same)
    rfl

theorem reaches_of_mem_follow (walked : item ∈ follow items key link seen current) :
    item ∈ items ∧ ∃ first, current = some first ∧ Reaches items key link first (key item) := by
  induction seen, current using follow.induct items key link with
  | case1 seen => simp [follow_none] at walked
  | case2 seen current returned => simp [follow_seen returned] at walked
  | case3 seen current fresh missing => simp [follow_missing missing] at walked
  | case4 seen current fresh other found inductionHypothesis =>
    obtain ⟨member, rfl⟩ := find_key found
    rw [follow_found fresh found, List.mem_cons] at walked
    refine ⟨?_, key other, rfl, ?_⟩
    · rcases walked with rfl | walked
      · exact member
      · exact (inductionHypothesis walked).1
    · rcases walked with rfl | walked
      · exact .refl
      · obtain ⟨-, first, linked, reached⟩ := inductionHypothesis walked
        exact .head ⟨other, member, rfl, linked⟩ reached

/-- Where the walk has been, a link leads only to where it has been, too. -/
theorem closed_follow (distinct : (items.map key).Nodup)
    (closed : ∀ one ∈ seen, ∀ other, Linked items key link one other →
      other ∈ seen ∨ current = some other) {one other : Key}
    (been : one ∈ seen ∨ ∃ item ∈ follow items key link seen current, key item = one)
    (linked : Linked items key link one other) (present : ∃ item ∈ items, key item = other) :
    other ∈ seen ∨ ∃ item ∈ follow items key link seen current, key item = other := by
  induction seen, current using follow.induct items key link with
  | case1 seen =>
    simp only [follow_none, List.not_mem_nil, false_and, exists_false, or_false] at been ⊢
    exact (closed one been other linked).resolve_right nofun
  | case2 seen current returned =>
    simp only [follow_seen returned, List.not_mem_nil, false_and, exists_false, or_false] at been ⊢
    rcases closed one been other linked with inside | same
    · exact inside
    · rwa [← Option.some.inj same]
  | case3 seen current fresh missing =>
    simp only [follow_missing missing, List.not_mem_nil, false_and, exists_false, or_false]
      at been ⊢
    rcases closed one been other linked with inside | same
    · exact inside
    · obtain ⟨item, member, rfl⟩ := present
      have absent := List.find?_eq_none.mp missing item member
      simp [Option.some.inj same] at absent
  | case4 seen current fresh item found inductionHypothesis =>
    obtain ⟨member, rfl⟩ := find_key found
    rw [follow_found fresh found] at been ⊢
    have later := inductionHypothesis (fun first inside second linked => ?_) (?_)
    · rcases later with inside | ⟨walked, inside, same⟩
      · rcases List.mem_cons.mp inside with rfl | inside
        · exact .inr ⟨item, List.mem_cons_self, rfl⟩
        · exact .inl inside
      · exact .inr ⟨walked, List.mem_cons_of_mem _ inside, same⟩
    · rcases List.mem_cons.mp inside with rfl | inside
      · obtain ⟨source, memberSource, same, linked⟩ := linked
        obtain rfl := List.inj_on_of_nodup_map distinct memberSource member same
        exact .inr linked
      · rcases closed first inside second linked with inside | same
        · exact .inl (List.mem_cons_of_mem _ inside)
        · rw [Option.some.inj same]
          exact .inl List.mem_cons_self
    · rcases been with inside | ⟨walked, inside, same⟩
      · exact .inl (List.mem_cons_of_mem _ inside)
      · rcases List.mem_cons.mp inside with rfl | inside
        · rw [← same]
          exact .inl List.mem_cons_self
        · exact .inr ⟨walked, inside, same⟩

theorem mem_follow_iff (distinct : (items.map key).Nodup) {head item : Item} (start : head ∈ items)
    (member : item ∈ items) :
    item = head ∨ item ∈ follow items key link [key head] (link head) ↔
      Reaches items key link (key head) (key item) := by
  constructor
  · rintro (rfl | walked)
    · exact .refl
    · obtain ⟨-, first, linked, reached⟩ := reaches_of_mem_follow walked
      exact .head ⟨head, start, rfl, linked⟩ reached
  · intro reached
    have been : ∀ other, Reaches items key link (key head) other →
        (∃ item ∈ items, key item = other) → other ∈ [key head] ∨
          ∃ item ∈ follow items key link [key head] (link head), key item = other := by
      intro other reached
      induction reached with
      | refl => exact fun _ => .inl List.mem_cons_self
      | @tail middle other earlier linked inductionHypothesis =>
        refine closed_follow distinct ?_ (inductionHypothesis ?_) linked
        · intro one inside other linked
          obtain ⟨source, memberSource, same, linked⟩ := linked
          rw [List.mem_singleton.mp inside] at same
          obtain rfl := List.inj_on_of_nodup_map distinct memberSource start same
          exact .inr linked
        · obtain ⟨source, memberSource, same, -⟩ := linked
          exact ⟨source, memberSource, same⟩
    rcases been _ reached ⟨item, member, rfl⟩ with inside | ⟨walked, inside, same⟩
    · exact .inl (List.inj_on_of_nodup_map distinct member start (List.mem_singleton.mp inside))
    · obtain ⟨memberWalked, -⟩ := reaches_of_mem_follow inside
      obtain rfl := List.inj_on_of_nodup_map distinct memberWalked member same
      exact .inr inside

/-! ### Searching backwards -/

theorem look_error (looked : look key answer part progress = .error found) :
    ∃ item ∈ part, answer item = some found := by
  induction part generalizing progress with
  | nil => simp [look] at looked
  | cons item rest inductionHypothesis =>
    obtain ⟨seen, stack⟩ := progress
    rw [look] at looked
    split at looked
    · obtain ⟨other, inside, answers⟩ := inductionHypothesis looked
      exact ⟨other, List.mem_cons_of_mem _ inside, answers⟩
    · cases answers : answer item with
      | some other =>
        simp only [answers, Except.error.injEq] at looked
        subst looked
        exact ⟨item, List.mem_cons_self, answers⟩
      | none =>
        simp only [answers] at looked
        obtain ⟨other, inside, answers⟩ := inductionHypothesis looked
        exact ⟨other, List.mem_cons_of_mem _ inside, answers⟩

/-- What a look sees is on the stack or was seen before, and answers nothing. -/
structure Looked (key : Item → Key) (answer : Item → Option Answer) (part : List Item)
    (before after : List Key × List Key) : Prop where
  seen : ∀ current ∈ before.1, current ∈ after.1
  stack : ∀ current ∈ before.2, current ∈ after.2
  all : ∀ item ∈ part, key item ∈ after.1
  fresh : ∀ current ∈ after.1, current ∈ before.1 ∨
    current ∈ after.2 ∧ ∃ item ∈ part, key item = current ∧ answer item = none
  waiting : ∀ current ∈ after.2, current ∈ before.2 ∨ ∃ item ∈ part, key item = current

theorem looked_of_look {before after : List Key × List Key}
    (looked : look key answer part before = .ok after) : Looked key answer part before after := by
  induction part generalizing before with
  | nil =>
    obtain rfl : before = after := by simpa [look] using looked
    exact ⟨fun _ inside => inside, fun _ inside => inside, nofun, fun _ inside => .inl inside,
      fun _ inside => .inl inside⟩
  | cons item rest inductionHypothesis =>
    obtain ⟨seen, stack⟩ := before
    rw [look] at looked
    split at looked
    · next known =>
      have later := inductionHypothesis looked
      refine ⟨later.seen, later.stack, ?_, fun current inside => ?_, fun current inside => ?_⟩
      · intro other inside
        rcases List.mem_cons.mp inside with rfl | inside
        · exact later.seen _ known
        · exact later.all other inside
      · refine (later.fresh current inside).imp_right fun found => ?_
        obtain ⟨waits, other, among, same⟩ := found
        exact ⟨waits, other, List.mem_cons_of_mem _ among, same⟩
      · refine (later.waiting current inside).imp_right fun found => ?_
        obtain ⟨other, among, same⟩ := found
        exact ⟨other, List.mem_cons_of_mem _ among, same⟩
    · cases answers : answer item with
      | some other => simp [answers] at looked
      | none =>
        simp only [answers] at looked
        have later := inductionHypothesis looked
        refine ⟨fun current inside => later.seen current (List.mem_cons_of_mem _ inside),
          fun current inside => later.stack current (List.mem_cons_of_mem _ inside), ?_,
          fun current inside => ?_, fun current inside => ?_⟩
        · intro other inside
          rcases List.mem_cons.mp inside with rfl | inside
          · exact later.seen _ List.mem_cons_self
          · exact later.all other inside
        · rcases later.fresh current inside with known | ⟨waits, other, among, same⟩
          · rcases List.mem_cons.mp known with rfl | known
            · exact .inr ⟨later.stack _ List.mem_cons_self, item, List.mem_cons_self, rfl, answers⟩
            · exact .inl known
          · exact .inr ⟨waits, other, List.mem_cons_of_mem _ among, same⟩
        · rcases later.waiting current inside with known | ⟨other, among, same⟩
          · rcases List.mem_cons.mp known with rfl | known
            · exact .inr ⟨item, List.mem_cons_self, rfl⟩
            · exact .inl known
          · exact .inr ⟨other, List.mem_cons_of_mem _ among, same⟩

/-- What a search has seen so far. -/
structure Searching (items : List Item) (key : Item → Key) (link : Item → Option Key)
    (answer : Item → Option Answer) (start : Key) (progress : List Key × List Key) : Prop where
  began : start ∈ progress.1
  reaches : ∀ current ∈ progress.2, Reaches items key link current start
  silent : ∀ item ∈ items, key item ∈ progress.1 → key item = start ∨ answer item = none
  closed : ∀ current ∈ progress.1, current ∉ progress.2 →
    ∀ item ∈ items, link item = some current → key item ∈ progress.1

omit [DecidableEq Key] in
theorem searching_start (start : Key) :
    Searching items key link answer start ([start], [start]) where
  began := List.mem_cons_self
  reaches current inside := by
    rw [List.mem_singleton.mp inside]
    exact .refl
  silent item _ inside := .inl (List.mem_singleton.mp inside)
  closed current inside outside := absurd inside outside

theorem Searching.look (distinct : (items.map key).Nodup) {start current : Key}
    {seen stack : List Key} {after : List Key × List Key}
    (searching : Searching items key link answer start (seen, current :: stack))
    (looked : look key answer (parents items link current) (seen, stack) = .ok after) :
    Searching items key link answer start after := by
  have looked := looked_of_look looked
  refine ⟨looked.seen _ searching.began, fun other inside => ?_, fun item member inside => ?_,
    fun other inside outside item member linked => ?_⟩
  · rcases looked.waiting other inside with waits | ⟨item, among, rfl⟩
    · exact searching.reaches other (List.mem_cons_of_mem _ waits)
    · obtain ⟨member, linked⟩ := List.mem_filter.mp among
      exact .head ⟨item, member, rfl, of_decide_eq_true linked⟩
        (searching.reaches current List.mem_cons_self)
  · rcases looked.fresh _ inside with known | ⟨-, other, among, same, silent⟩
    · exact searching.silent item member known
    · obtain rfl := List.inj_on_of_nodup_map distinct (List.mem_filter.mp among).1 member same
      exact .inr silent
  · rcases looked.fresh _ inside with known | ⟨waits, -⟩
    · by_cases same : other = current
      · subst same
        exact looked.all item (List.mem_filter.mpr ⟨member, decide_eq_true linked⟩)
      · refine looked.seen _ (searching.closed other known (fun waits => ?_) item member linked)
        rcases List.mem_cons.mp waits with rfl | waits
        · exact same rfl
        · exact outside (looked.stack _ waits)
    · exact absurd waits outside

theorem searchBack_some (distinct : (items.map key).Nodup) {start : Key}
    (searching : Searching items key link answer start progress)
    (searched : searchBack items key link answer progress = some found) :
    ∃ item ∈ items, Reaches items key link (key item) start ∧ answer item = some found := by
  induction progress using searchBack.induct items key link answer with
  | case1 seen => simp [searchBack] at searched
  | case2 seen current stack other looked =>
    rw [searchBack, looked] at searched
    obtain rfl := Option.some.inj searched
    obtain ⟨item, among, answers⟩ := look_error looked
    obtain ⟨member, linked⟩ := List.mem_filter.mp among
    exact ⟨item, member, .head ⟨item, member, rfl, of_decide_eq_true linked⟩
      (searching.reaches current List.mem_cons_self), answers⟩
  | case3 seen current stack progress looked inductionHypothesis =>
    rw [searchBack, looked] at searched
    exact inductionHypothesis (searching.look distinct looked) searched

theorem searchBack_none (distinct : (items.map key).Nodup) {start : Key}
    (searching : Searching items key link answer start progress)
    (searched : searchBack items key link answer progress = none) (member : item ∈ items)
    (reached : Reaches items key link (key item) start) :
    key item = start ∨ answer item = none := by
  induction progress using searchBack.induct items key link answer with
  | case1 seen =>
    refine searching.silent item member ?_
    have inside : ∀ one, Reaches items key link one start → one ∈ seen := by
      intro one reached
      induction reached using Relation.ReflTransGen.head_induction_on with
      | refl => exact searching.began
      | @head one other linked later inductionHypothesis =>
        obtain ⟨source, memberSource, rfl, linked⟩ := linked
        exact searching.closed other inductionHypothesis List.not_mem_nil source memberSource linked
    exact inside _ reached
  | case2 seen current stack other looked =>
    rw [searchBack, looked] at searched
    cases searched
  | case3 seen current stack progress looked inductionHypothesis =>
    rw [searchBack, looked] at searched
    exact inductionHypothesis (searching.look distinct looked) searched

/-! ### New links -/

theorem reaches_new_sink {Key : Type} {old new : Key → Key → Prop} {source : Key → Prop} {sink : Key}
    (links : ∀ one other, new one other → old one other ∨ source one ∧ other = sink)
    (ends : ∀ other, ¬ new sink other) {one other : Key}
    (reached : Relation.ReflTransGen new one other) :
    Relation.ReflTransGen old one other ∨
      other = sink ∧ (one = sink ∨ ∃ last, source last ∧ Relation.ReflTransGen old one last) := by
  induction reached with
  | refl => exact .inl .refl
  | @tail middle other earlier linked inductionHypothesis =>
    rcases inductionHypothesis with before | ⟨rfl, -⟩
    · rcases links middle other linked with linked | ⟨sources, rfl⟩
      · exact .inl (before.tail linked)
      · exact .inr ⟨rfl, .inr ⟨middle, sources, before⟩⟩
    · exact absurd linked (ends other)

end Lineage
