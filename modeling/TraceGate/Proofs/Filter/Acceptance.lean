import TraceGate.Proofs.Filter.Decision

namespace TraceGate.Filter

open Text ListText

structure InjectionSection.Complete (s : InjectionSection) : Prop where
  app : trim s.app.toList ≠ []
  context : trim s.context.toList ≠ []
  node : trim s.node.toList ≠ []
  service : ∃ piece ∈ pieces ',' s.serviceIds.toList, trim piece ≠ []
  numbers : ∀ piece ∈ pieces ',' s.serviceIds.toList, trim piece ≠ [] →
    ∃ n, Numeral.Denotes 10 (trim piece) n ∧ n < 2 ^ 32

structure FilterSection.Sound (s : FilterSection) (injections : List InjectionSection) : Prop where
  level : 0 ≤ s.level ∧ s.level ≤ maxLevel
  registered : ∀ name : String, Lists s.injections name.toList → ∃ i ∈ injections, i.name = name

structure Config.WellFormed (config : Config) : Prop where
  level : 0 ≤ config.general.defaultLevel ∧ config.general.defaultLevel ≤ maxLevel
  injections : ∀ i, IsFirst InjectionSection.name config.injections i → i.Complete
  filters : ∀ s, IsFirst FilterSection.name config.filters s → s.Sound config.injections
  apart : ∀ s t, IsFirst FilterSection.name config.filters s → IsFirst FilterSection.name config.filters t →
    s.name ≠ t.name → s.level ≠ t.level

/-- The errors that are about what a section says. -/
inductive FilterError.IsFault : FilterError → Prop
  | level (n : Int) : IsFault (.levelOutOfRange n)
  | duplicate (level : Nat) : IsFault (.duplicateLevel level)
  | unknown (filter injection : String) : IsFault (.unknownInjection filter injection)
  | injection (name : String) (fault : InjectionFault) : IsFault (.configInvalid name fault)

def Decided {α : Type} (P : Prop) : Except FilterError α → Prop
  | .ok _ => P
  | .error e => ¬P ∧ e.IsFault

section

variable {α β : Type} {P Q : Prop} {x : Except FilterError α} {f : α → Except FilterError β}

theorem Decided.congr (decided : Decided P x) (iff : P ↔ Q) : Decided Q x := by
  rwa [← propext iff]

theorem Decided.exists_ok (decided : Decided P x) (holds : P) : ∃ a, x = .ok a := by
  cases x with
  | ok a => exact ⟨a, rfl⟩
  | error e => exact absurd holds decided.1

theorem Decided.of_ok (decided : Decided P x) {a : α} (ok : x = .ok a) : P := by
  rwa [ok] at decided

theorem Decided.ok_iff (decided : Decided P x) : (∃ a, x = .ok a) ↔ P := by
  constructor
  · rintro ⟨a, ok⟩
    exact decided.of_ok ok
  · exact decided.exists_ok

theorem Decided.bind (first : Decided P x) (next : ∀ a, x = .ok a → Decided Q (f a)) : Decided (P ∧ Q) (x >>= f) := by
  cases x with
  | ok a =>
      have holds : P := first
      exact (next a rfl).congr (iff_and_self.2 fun _ => holds)
  | error e => exact ⟨fun both => first.1 both.1, first.2⟩

end

theorem checkLevel_decided (n : Int) : Decided (0 ≤ n ∧ n ≤ maxLevel) (checkLevel n) := by
  unfold checkLevel
  cases read : level? n with
  | some level =>
      obtain ⟨rfl, high⟩ := level?_eq_some_iff.1 read
      exact ⟨Int.natCast_nonneg level, Int.ofNat_le.2 high⟩
  | none =>
      refine ⟨fun inside => ?_, .level n⟩
      rw [level?, if_pos inside] at read
      cases read

theorem ListText.numbers_ok_iff {l : List (List Char)} :
    (∃ ids, numbers l = .ok ids) ↔ ∀ token ∈ l, ∃ n, Numeral.Denotes 10 token n ∧ n < 2 ^ 32 := by
  induction l with
  | nil => exact iff_of_true ⟨[], rfl⟩ (by simp)
  | cons t l ih =>
      unfold numbers
      rw [List.forall_mem_cons, ← ih]
      simp only [← @Numeral.read?_eq_some_iff 10 (2 ^ 32)]
      cases read : decimalId? t with
      | none =>
          rw [decimalId?] at read
          simp [read]
      | some n =>
          rw [decimalId?] at read
          cases numbers l <;> simp [read, Except.map]

theorem ListText.serviceIds_decided (name text : String) :
    Decided (∀ token ∈ tokens text.toList, ∃ n, Numeral.Denotes 10 token n ∧ n < 2 ^ 32) (serviceIds name text) := by
  rw [← propext numbers_ok_iff]
  unfold serviceIds
  cases numbers (tokens text.toList) with
  | ok l => exact ⟨l, rfl⟩
  | error t => exact ⟨by simp, .injection name _⟩

theorem ListText.serviceIds_eq_nil_iff {name text : String} {ids : List Nat} (ok : serviceIds name text = .ok ids) :
    ids = [] ↔ tokens text.toList = [] := by
  unfold serviceIds at ok
  split at ok
  · rename_i l read
    cases ok
    cases listed : tokens text.toList with
    | nil =>
        rw [listed, numbers] at read
        cases read
        exact iff_of_true rfl rfl
    | cons t l =>
        rw [listed, numbers] at read
        split at read
        · cases tail : numbers l <;> rw [tail] at read <;> cases read
          simp
        · cases read
  · cases ok

theorem Injection.ofSection_decided (s : InjectionSection) : Decided s.Complete (Injection.ofSection s) := by
  unfold Injection.ofSection
  simp only [List.forIn_cons, List.forIn_nil]
  by_cases app : trim s.app.toList = []
  · rw [if_pos app]
    exact ⟨fun complete => complete.app app, .injection s.name _⟩
  by_cases context : trim s.context.toList = []
  · rw [if_neg app, if_pos context]
    exact ⟨fun complete => complete.context context, .injection s.name _⟩
  by_cases node : trim s.node.toList = []
  · rw [if_neg app, if_neg context, if_pos node]
    exact ⟨fun complete => complete.node node, .injection s.name _⟩
  rw [if_neg app, if_neg context, if_neg node]
  refine ((serviceIds_decided s.name s.serviceIds).bind (Q := tokens s.serviceIds.toList ≠ [])
    fun ids read => ?_).congr ?_
  · have empty := serviceIds_eq_nil_iff read
    split
    · rename_i none
      exact ⟨fun filled => filled (empty.1 none), .injection s.name _⟩
    · rename_i some
      exact mt empty.2 some
  · constructor
    · rintro ⟨numbers, some⟩
      obtain ⟨token, mem⟩ := List.exists_mem_of_ne_nil _ some
      obtain ⟨filled, piece, cut, rfl⟩ := mem_tokens.1 mem
      exact ⟨app, context, node, ⟨piece, cut, filled⟩, fun piece cut filled =>
        numbers _ (mem_tokens.2 ⟨filled, piece, cut, rfl⟩)⟩
    · rintro ⟨-, -, -, ⟨piece, cut, filled⟩, numbers⟩
      refine ⟨fun token mem => ?_, List.ne_nil_of_mem (mem_tokens.2 ⟨filled, piece, cut, rfl⟩)⟩
      obtain ⟨filled, piece, cut, rfl⟩ := mem_tokens.1 mem
      exact numbers piece cut filled

namespace Registry

variable {r r' : Registry} {name : String} {s : InjectionSection} {l l' : List InjectionSection}

theorem contains_insert {i : Injection} (free : r.contains i.name = false) :
    (r.insert i).contains name = true ↔ i.name = name ∨ r.contains name = true := by
  rw [contains, find?_insert free]
  split
  · simp [*]
  · simp [*, contains]

theorem addSections_decided (r : Registry) (l : List InjectionSection) :
    Decided (∀ s, IsFirst InjectionSection.name l s → r.contains s.name = false → s.Complete) (addSections r l) := by
  induction l generalizing r with
  | nil =>
      intro s first
      cases first
  | cons t l ih =>
      unfold addSections
      split
      · rename_i taken
        refine (ih r).congr (forall_congr' fun s => ?_)
        rw [isFirst_cons]
        constructor
        · rintro complete (rfl | ⟨-, first⟩) free
          · rw [taken] at free
            cases free
          · exact complete first free
        · intro complete first free
          refine complete (Or.inr ⟨fun same => ?_, first⟩) free
          rw [← same, taken] at free
          cases free
      · rename_i free
        rw [Bool.not_eq_true] at free
        refine ((Injection.ofSection_decided t).bind
          (Q := ∀ s, IsFirst InjectionSection.name l s → t.name ≠ s.name → r.contains s.name = false → s.Complete)
          fun i built => ?_).congr ?_
        · have named := (Injection.ofSection_ok built).1
          refine (ih (r.insert i)).congr (forall_congr' fun s => imp_congr_right fun first => ?_)
          rw [← Bool.not_eq_true, contains_insert (named ▸ free), named, not_or, and_imp, Bool.not_eq_true]
        · simp only [isFirst_cons]
          constructor
          · rintro ⟨complete, rest⟩ s (rfl | ⟨other, first⟩) free'
            · exact complete
            · exact rest s first other free'
          · exact fun complete => ⟨complete t (Or.inl rfl) free, fun s first other =>
              complete s (Or.inr ⟨other, first⟩)⟩

theorem contains_addSections (ok : addSections r l = .ok r') :
    r'.contains name = true ↔ r.contains name = true ∨ ∃ s ∈ l, s.name = name := by
  induction l generalizing r with
  | nil =>
      cases ok
      simp
  | cons t l ih =>
      unfold addSections at ok
      split at ok
      · rename_i taken
        rw [ih ok, List.exists_mem_cons_iff, ← or_assoc]
        refine or_congr_left (or_iff_left_of_imp ?_).symm
        rintro rfl
        exact taken
      · rename_i free
        rw [Bool.not_eq_true] at free
        obtain ⟨i, built, ok⟩ := bind_eq_ok.1 ok
        have named := (Injection.ofSection_ok built).1
        rw [ih ok, contains_insert (named ▸ free), named, List.exists_mem_cons_iff, or_assoc, or_left_comm]

theorem addSections_skip (known : r.contains s.name = true ∨ s.name ∈ l.map (·.name)) :
    addSections r (l ++ s :: l') = addSections r (l ++ l') := by
  induction l generalizing r with
  | nil =>
      have taken : r.contains s.name = true := by simpa using known
      rw [List.nil_append, addSections, if_pos taken, List.nil_append]
  | cons t l ih =>
      rw [List.cons_append, List.cons_append]
      unfold addSections
      split
      · rename_i taken
        refine ih (known.elim Or.inl fun mem => ?_)
        rcases List.mem_cons.1 mem with same | mem
        · exact Or.inl (same ▸ taken)
        · exact Or.inr mem
      · rename_i free
        rw [Bool.not_eq_true] at free
        cases built : Injection.ofSection t with
        | error e => rfl
        | ok i =>
            have named := (Injection.ofSection_ok built).1
            refine ih ?_
            rw [contains_insert (named ▸ free), named]
            rcases known with taken | mem
            · exact Or.inl (Or.inr taken)
            · rcases List.mem_cons.1 mem with same | mem
              · exact Or.inl (Or.inl same.symm)
              · exact Or.inr mem

end Registry

theorem Segment.ofSection_decided (registry : Registry) (s : FilterSection) :
    Decided ((0 ≤ s.level ∧ s.level ≤ maxLevel) ∧
      ∀ name : String, Lists s.injections name.toList → registry.contains name = true)
      (Segment.ofSection registry s) := by
  unfold Segment.ofSection
  refine (checkLevel_decided s.level).bind fun level checked => ?_
  obtain ⟨-, high⟩ := checkLevel_eq_ok_iff.1 checked
  simp only [← mem_spelled]
  split
  · rename_i missing found
    have unknown : registry.contains missing = false := by simpa using List.find?_some found
    refine ⟨fun known => ?_, .unknown s.name missing⟩
    rw [known missing (List.mem_of_find?_eq_some found)] at unknown
    cases unknown
  · rename_i known
    rw [ofLevel, if_pos high]
    exact fun name mem => by simpa using List.find?_eq_none.1 known name mem

namespace Chain

variable {registry : Registry} {c c' : Chain} {s t : Segment} {l : List Segment} {start : Nat}

abbrev levels (c : Chain) : List Nat := c.segments.map (·.levelMax)

theorem mem_levels_place {n : Nat} :
    n ∈ (place s start l).map (·.levelMax) ↔ n = s.levelMax ∨ n ∈ l.map (·.levelMax) := by
  induction l generalizing start with
  | nil => simp [place]
  | cons t l ih =>
      unfold place
      split
      · rw [List.map_cons, List.mem_cons, ih, List.map_cons, List.mem_cons, or_left_comm]
      · simp

theorem mem_levels_insert {i n : Nat} (ok : c.insert s = .ok (i, c')) :
    n ∈ c'.levels ↔ n = s.levelMax ∨ n ∈ c.levels := by
  unfold insert at ok
  split at ok
  · cases ok
  · cases ok
    exact mem_levels_place

theorem insert_decided (c : Chain) (s : Segment) : Decided (s.levelMax ∉ c.levels) (c.insert s) := by
  have taken : (c.segments.any fun t => t.levelMax = s.levelMax) = true ↔ s.levelMax ∈ c.levels := by
    simp
  unfold insert
  split
  · rename_i same
    exact ⟨fun apart => apart (taken.1 same), .duplicate s.levelMax⟩
  · rename_i apart
    exact mt taken.2 apart

structure Fits (registry : Registry) (levels : List Nat) (among : FilterSection → Prop) (s : FilterSection) : Prop where
  level : 0 ≤ s.level ∧ s.level ≤ maxLevel
  known : ∀ name : String, Lists s.injections name.toList → registry.contains name = true
  free : ∀ n ∈ levels, s.level ≠ (n : Int)
  apart : ∀ t, among t → s.name ≠ t.name → s.level ≠ t.level

theorem addSections_decided (registry : Registry) (seen : List String) (c : Chain) (l : List FilterSection) :
    Decided (∀ s, Counts seen l s → Fits registry c.levels (Counts seen l) s)
      (addSections registry seen c l) := by
  induction l generalizing seen c with
  | nil =>
      intro s counts
      cases counts.1
  | cons t l ih =>
      unfold addSections
      split
      · rename_i again
        have known : t.name ∈ seen := by simpa using again
        have same : Counts seen (t :: l) = Counts seen l := funext fun s => propext (counts_cons_of_mem known)
        rw [same]
        exact ih seen c
      · rename_i fresh
        have new : t.name ∉ seen := by simpa using fresh
        refine ((Segment.ofSection_decided registry t).bind
          (Q := (∀ n ∈ c.levels, t.level ≠ (n : Int)) ∧ ∀ s, Counts (t.name :: seen) l s →
            Fits registry c.levels (Counts (t.name :: seen) l) s ∧ s.level ≠ t.level)
          fun segment described => ?_).congr ?_
        · obtain ⟨-, -, same, -, -⟩ := Segment.ofSection_ok described
          refine Decided.bind ((insert_decided c segment).congr ?_) fun inside inserted =>
            (ih (t.name :: seen) inside.2).congr (forall_congr' fun s => imp_congr_right fun counts => ?_)
          · rw [same]
            exact ⟨fun apart n mem claimed => apart (Int.natCast_inj.1 claimed ▸ mem), fun apart mem => apart _ mem rfl⟩
          · have levels (n : Nat) := mem_levels_insert (n := n) inserted
            constructor
            · rintro ⟨level, known, free, apart⟩
              exact ⟨⟨level, known, fun n mem => free n ((levels n).2 (Or.inr mem)), apart⟩,
                same ▸ free _ ((levels _).2 (Or.inl rfl))⟩
            · rintro ⟨⟨level, known, free, apart⟩, other⟩
              refine ⟨level, known, fun n mem => ?_, apart⟩
              rcases (levels n).1 mem with rfl | mem
              · exact same ▸ other
              · exact free n mem
        · have joined : Counts seen (t :: l) = fun s => t = s ∨ Counts (t.name :: seen) l s :=
            funext fun s => propext (counts_cons_of_notMem new)
          rw [joined]
          constructor
          · rintro ⟨⟨level, known⟩, free, rest⟩ s (rfl | counts)
            · refine ⟨level, known, free, ?_⟩
              rintro u (rfl | counts) other
              · exact absurd rfl other
              · exact (rest u counts).2.symm
            · obtain ⟨fits, other⟩ := rest s counts
              refine ⟨fits.level, fits.known, fits.free, ?_⟩
              rintro u (rfl | counts) differ
              · exact other
              · exact fits.apart u counts differ
          · intro fits
            have first := fits t (Or.inl rfl)
            refine ⟨⟨first.level, first.known⟩, first.free, fun s counts => ?_⟩
            have later := fits s (Or.inr counts)
            have named : s.name ≠ t.name := fun same => counts.2 (same ▸ List.mem_cons_self)
            exact ⟨⟨later.level, later.known, later.free, fun u counts => later.apart u (Or.inr counts)⟩,
              later.apart t (Or.inl rfl) named⟩

theorem addSections_skip {seen : List String} {s : FilterSection} {l l' : List FilterSection}
    (known : s.name ∈ seen ∨ s.name ∈ l.map (·.name)) :
    addSections registry seen c (l ++ s :: l') = addSections registry seen c (l ++ l') := by
  induction l generalizing seen c with
  | nil =>
      have again : seen.contains s.name = true := by simpa using known
      rw [List.nil_append, addSections, if_pos again, List.nil_append]
  | cons t l ih =>
      rw [List.cons_append, List.cons_append]
      unfold addSections
      split
      · rename_i again
        refine ih (known.elim Or.inl fun mem => ?_)
        rcases List.mem_cons.1 mem with same | mem
        · exact Or.inl (same ▸ List.mem_of_elem_eq_true again)
        · exact Or.inr mem
      · have known : s.name ∈ t.name :: seen ∨ s.name ∈ l.map (·.name) := by
          rw [List.map_cons, List.mem_cons] at known
          rw [List.mem_cons]
          tauto
        refine congrArg _ (funext fun segment => congrArg _ (funext fun inserted => ?_))
        exact ih known

def Tiled : (start : Nat) → List Segment → Prop
  | _, [] => True
  | start, s :: l => s.levelMin = start ∧ s.levelMin ≤ s.levelMax ∧ Tiled (s.levelMax + 1) l

theorem Tiled.place (tiled : Tiled start l) (above : start ≤ s.levelMax) (apart : s.levelMax ∉ l.map (·.levelMax)) :
    Tiled start (place s start l) := by
  induction l generalizing start with
  | nil => exact ⟨rfl, above, trivial⟩
  | cons t l ih =>
      obtain ⟨starts, filled, rest⟩ := tiled
      rw [List.map_cons, List.mem_cons, not_or] at apart
      unfold Chain.place
      split
      · rename_i below
        exact ⟨starts, filled, ih rest below apart.2⟩
      · rename_i reaches
        exact ⟨rfl, above, rfl, by dsimp only; omega, rest⟩

theorem Tiled.insert (tiled : Tiled 0 c.segments) {i : Nat} (ok : c.insert s = .ok (i, c')) : Tiled 0 c'.segments := by
  have apart := (insert_decided c s).of_ok ok
  unfold Chain.insert at ok
  split at ok
  · cases ok
  · cases ok
    exact tiled.place (Nat.zero_le _) apart

theorem Tiled.addSections {seen : List String} {l : List FilterSection} (tiled : Tiled 0 c.segments)
    (ok : addSections registry seen c l = .ok c') : Tiled 0 c'.segments := by
  induction l generalizing seen c with
  | nil =>
      cases ok
      exact tiled
  | cons t l ih =>
      unfold Chain.addSections at ok
      split at ok
      · exact ih tiled ok
      · obtain ⟨segment, -, ok⟩ := bind_eq_ok.1 ok
        obtain ⟨⟨i, extended⟩, inserted, ok⟩ := bind_eq_ok.1 ok
        exact ih (tiled.insert inserted) ok

theorem Tiled.check_closeSegments (tiled : Tiled start l) (filled : l ≠ []) (high : ∀ s ∈ l, s.levelMax ≤ maxLevel) :
    check start (closeSegments l) = .ok () := by
  induction l using closeSegments.induct generalizing start with
  | case1 => exact absurd rfl filled
  | case2 s =>
      obtain ⟨starts, upward, -⟩ := tiled
      have bounded := high s List.mem_cons_self
      unfold closeSegments
      split
      · rw [check, if_neg (by dsimp only; omega)]
        rfl
      · rename_i top
        rw [check, if_neg (by omega), check, if_pos (by omega)]
  | case3 s t l ih =>
      obtain ⟨starts, upward, rest⟩ := tiled
      rw [closeSegments, check, if_neg (by omega)]
      exact ih rest (by simp) fun u mem => high u (List.mem_cons_of_mem _ mem)

theorem injections_closeSegments (mem : t ∈ closeSegments l) :
    t.injections = .nothing ∨ ∃ s ∈ l, s.injections = t.injections := by
  induction l using closeSegments.induct with
  | case1 =>
      obtain rfl := List.mem_singleton.1 mem
      exact Or.inl rfl
  | case2 s =>
      obtain rfl := List.mem_singleton.1 mem
      refine Or.inr ⟨s, List.mem_cons_self, ?_⟩
      split <;> rfl
  | case3 s u l ih =>
      rcases List.mem_cons.1 mem with rfl | mem
      · exact Or.inr ⟨t, List.mem_cons_self, rfl⟩
      · refine (ih mem).imp_right ?_
        rintro ⟨v, mem, same⟩
        exact ⟨v, List.mem_cons_of_mem _ mem, same⟩

end Chain

namespace MessageFilter

theorem unknownName?_eq_none {registry : Registry} {l : List Segment}
    (known : ∀ s ∈ l, ∀ name ∈ s.injections.spelled, registry.contains name = true) :
    unknownName? registry l = none := by
  induction l with
  | nil => rfl
  | cons s l ih =>
      have clean : (s.injections.spelled.find? fun n => !registry.contains n) = none :=
        List.find?_eq_none.2 fun name mem => by simp [known s List.mem_cons_self name mem]
      rw [unknownName?, clean]
      exact ih fun t mem => known t (List.mem_cons_of_mem _ mem)

theorem ofChain_ok {registry : Registry} {sections : List FilterSection} {c : Chain} {level : Nat}
    (built : Chain.addSections registry [] {} sections = .ok c) (high : level ≤ maxLevel) (name : String)
    (backend : Option String) : ∃ f, ofChain name c.close registry level backend = .ok f := by
  obtain ⟨ordered, -, origin⟩ := Chain.addSections_ok built List.Pairwise.nil
  have tiled : Chain.Tiled 0 c.segments := Chain.Tiled.addSections (c := {}) trivial built
  have sound : ∀ t ∈ c.segments, t.levelMax ≤ maxLevel ∧ ∀ n ∈ t.injections.spelled, registry.contains n = true := by
    intro t mem
    obtain ⟨s, -, described⟩ := ((origin t.unplaced).1 (List.mem_map_of_mem mem)).resolve_left List.not_mem_nil
    obtain ⟨follows, -, -, high, -⟩ := Segment.ofSection_ok described
    exact ⟨high, follows.known⟩
  have valid : c.close.validate = .ok () := by
    rcases eq : c.segments with - | ⟨s, l⟩
    · rw [Chain.validate, Chain.close, eq]
      rfl
    · exact tiled.check_closeSegments (by simp [eq]) fun t mem => (sound t mem).1
  -- The last segment of a closed chain reaches every level.
  have covered : c.close.find? level ≠ none := by
    rw [Ne, Chain.find?, List.findIdx?_eq_none_iff]
    intro short
    rcases eq : c.segments with - | ⟨s, l⟩
    · have below := short (.restrictive Chain.fallbackName) (by simp [Chain.close, eq, Chain.closeSegments])
      simp [Segment.restrictive, high] at below
    · obtain ⟨t, top, -, found⟩ := Chain.find?_closeSegments (by simp [eq]) ordered high
      have reaches := List.find?_some found
      rw [short _ (List.mem_of_find?_eq_some found)] at reaches
      cases reaches
  have registered : unknownName? registry c.close.segments = none := by
    refine unknownName?_eq_none fun t mem n spelled => ?_
    rcases Chain.injections_closeSegments mem with empty | ⟨s, mem, same⟩
    · rw [empty] at spelled
      cases spelled
    · exact (sound s mem).2 n (same ▸ spelled)
  unfold ofChain
  rw [valid, checkLevel_eq_ok_iff.2 ⟨rfl, high⟩]
  simp only [bind, Except.bind]
  split
  · rename_i none
    exact absurd none covered
  · rw [registered]
    exact ⟨_, rfl⟩

theorem ofConfig_decided (config : Config) : Decided config.WellFormed (ofConfig config) := by
  unfold ofConfig
  refine ((Registry.addSections_decided {} config.injections).bind (Q :=
    (∀ s, IsFirst FilterSection.name config.filters s → s.Sound config.injections ∧
      ∀ t, IsFirst FilterSection.name config.filters t → s.name ≠ t.name → s.level ≠ t.level) ∧
    0 ≤ config.general.defaultLevel ∧ config.general.defaultLevel ≤ maxLevel) fun registry registered => ?_).congr ?_
  · refine ((Chain.addSections_decided registry [] {} config.filters).congr ?_).bind fun c built => ?_
    · simp only [funext fun s => propext (counts_nil (l := config.filters) (s := s))]
      refine forall_congr' fun s => imp_congr_right fun first => ?_
      have known (name : String) : registry.contains name = true ↔ ∃ i ∈ config.injections, i.name = name := by
        rw [Registry.contains_addSections registered]
        simp [Registry.contains, Registry.find?]
      constructor
      · rintro ⟨level, registered, -, apart⟩
        exact ⟨⟨level, fun name listed => (known name).1 (registered name listed)⟩, apart⟩
      · rintro ⟨⟨level, registered⟩, apart⟩
        exact ⟨level, fun name listed => (known name).2 (registered name listed), by simp [Chain.levels], apart⟩
    · refine ((checkLevel_decided config.general.defaultLevel).bind (Q := True)
        fun level checked => ?_).congr (iff_of_eq (and_true _))
      obtain ⟨f, ok⟩ := ofChain_ok built (checkLevel_eq_ok_iff.1 checked).2 config.general.name config.general.backend
      rw [ok]
      trivial
  · constructor
    · rintro ⟨injections, filters, level⟩
      refine ⟨level, fun i first => injections i first rfl, fun s first => (filters s first).1, ?_⟩
      exact fun s t first first' => (filters s first).2 t first'
    · rintro ⟨level, injections, filters, apart⟩
      refine ⟨fun i first _ => injections i first, fun s first => ⟨filters s first, ?_⟩, level⟩
      exact fun t first' => apart s t first first'

/-- A filter is built exactly from the well-formed configurations, sections that repeat a name are of no account,
and what is refused is refused for a fault in a section or in the default level. -/
theorem ofConfig_verdict (config : Config) :
    ((∃ f, ofConfig config = .ok f) ↔ config.WellFormed) ∧
    (∀ (l : List FilterSection) (s : FilterSection) (l' : List FilterSection), s.name ∈ l.map (·.name) →
      ofConfig { config with filters := l ++ s :: l' } = ofConfig { config with filters := l ++ l' }) ∧
    (∀ (l : List InjectionSection) (s : InjectionSection) (l' : List InjectionSection), s.name ∈ l.map (·.name) →
      ofConfig { config with injections := l ++ s :: l' } = ofConfig { config with injections := l ++ l' }) ∧
    ∀ e, ofConfig config = .error e → e.IsFault := by
  have decided := ofConfig_decided config
  refine ⟨decided.ok_iff, fun l s l' repeated => ?_, fun l s l' repeated => ?_, fun e refused => ?_⟩
  · unfold ofConfig
    simp only [Chain.addSections_skip (Or.inr repeated)]
  · unfold ofConfig
    simp only [Registry.addSections_skip (Or.inr repeated)]
  · rw [refused] at decided
    exact decided.2

end MessageFilter

end TraceGate.Filter
