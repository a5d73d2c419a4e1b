import TraceGate.Proofs.Filter.Build

namespace TraceGate.Filter

open Text ListText

def InjectionSection.Reaches (s : InjectionSection) (app context node : String) (id : Nat) : Prop :=
  String.ofList (trim s.app.toList) = app ∧ String.ofList (trim s.context.toList) = context ∧
    String.ofList (trim s.node.toList) = node ∧
    ∃ piece ∈ pieces ',' s.serviceIds.toList, Numeral.Denotes 10 (trim piece) id

theorem Injection.matches_iff {s : InjectionSection} {i : Injection} (built : Injection.ofSection s = .ok i)
    {app context node : String} {id : Nat} : i.Matches app context node id ↔ s.Reaches app context node id := by
  obtain ⟨-, app', context', node', services⟩ := Injection.ofSection_ok built
  rw [Injection.Matches, app', context', node', services, InjectionSection.Reaches]

namespace FilterSection

def Admits (s : FilterSection) (kind : Kind) : Prop :=
  kind ∈ KindSet.standing ∨ IsStar s.clients ∨ ∃ token, Lists s.clients token ∧ Enables (String.ofList token) kind

def Serves (s : FilterSection) (id : Nat) : Prop :=
  IsStar s.controlMessages ∨ ∃ token, Lists s.controlMessages token ∧ Numeral.Denotes 16 (unmarked token) id

def Passes (s : FilterSection) (injections : List InjectionSection) (app context node : String) (id : Nat) : Prop :=
  IsStar s.injections ∨ ∃ i, IsFirst InjectionSection.name injections i ∧ Lists s.injections i.name.toList ∧
    i.Reaches app context node id

def Rules (l : List FilterSection) (level : Int) (s : FilterSection) : Prop :=
  Responsible FilterSection.level (IsFirst FilterSection.name l) level s

end FilterSection

theorem Chain.find?_get {c : Chain} {level i : Nat} (found : c.find? level = some i) :
    c.segments.find? (fun s => level ≤ s.levelMax) = some (c.segments.get ⟨i, lt_of_find?_eq_some found⟩) := by
  obtain ⟨lt, reaches, before⟩ := List.findIdx?_eq_some_iff_getElem.1 found
  exact List.find?_eq_some_iff_getElem.2 ⟨reaches, i, lt, rfl, fun j below => by simpa using before j below⟩

namespace MessageFilter

variable {config : Config} {level : Int} {f g : MessageFilter}

structure Stands (config : Config) (level : Int) (f : MessageFilter) : Prop where
  registry : Registry.addSections {} config.injections = .ok f.registry
  chain : ∃ c, Chain.addSections f.registry [] {} config.filters = .ok c ∧ f.chain = c.close
  segment : ∃ n : Nat, level = n ∧ n ≤ maxLevel ∧ f.chain.segments.find? (fun s => n ≤ s.levelMax) = some f.segment

theorem ofConfig_stands (ok : ofConfig config = .ok f) : Stands config config.general.defaultLevel f := by
  unfold ofConfig at ok
  obtain ⟨registry, injections, ok⟩ := bind_eq_ok.1 ok
  obtain ⟨chain, filters, ok⟩ := bind_eq_ok.1 ok
  obtain ⟨level, checked, ok⟩ := bind_eq_ok.1 ok
  obtain ⟨same, high⟩ := checkLevel_eq_ok_iff.1 checked
  unfold ofChain at ok
  obtain ⟨-, -, ok⟩ := bind_eq_ok.1 ok
  obtain ⟨level', checked', ok⟩ := bind_eq_ok.1 ok
  obtain ⟨same', -⟩ := checkLevel_eq_ok_iff.1 checked'
  obtain rfl : level = level' := by omega
  split at ok
  · cases ok
  · rename_i current found
    split at ok
    · cases ok
    · cases ok
      exact ⟨injections, ⟨chain, filters, rfl⟩, level, same, high, Chain.find?_get found⟩

theorem Stands.changeLevel (stands : Stands config level f) {n : Nat} {change : LevelChange}
    (ok : f.changeLevel n = .ok (change, g)) : Stands config n g := by
  unfold MessageFilter.changeLevel at ok
  obtain ⟨level', checked, ok⟩ := bind_eq_ok.1 ok
  obtain ⟨same, high⟩ := checkLevel_eq_ok_iff.1 checked
  obtain rfl : n = level' := by omega
  split at ok
  · cases ok
  · rename_i next found
    cases ok
    exact ⟨stands.registry, stands.chain, n, rfl, high, Chain.find?_get found⟩

/-- The filters that come from a configuration, with the level that was accepted last. -/
inductive LevelRun (config : Config) : Int → MessageFilter → Prop
  | start {f : MessageFilter} (ok : ofConfig config = .ok f) : LevelRun config config.general.defaultLevel f
  | accepted {level : Int} {f g : MessageFilter} {n : Nat} {change : LevelChange} (before : LevelRun config level f)
      (ok : f.changeLevel n = .ok (change, g)) : LevelRun config n g
  | rejected {level : Int} {f : MessageFilter} {n : Nat} {e : FilterError} (before : LevelRun config level f)
      (refused : f.changeLevel n = .error e) : LevelRun config level f

theorem LevelRun.stands (run : LevelRun config level f) : Stands config level f := by
  induction run with
  | start ok => exact ofConfig_stands ok
  | accepted _ ok ih => exact ih.changeLevel ok
  | rejected _ _ ih => exact ih

theorem counts_nil {l : List FilterSection} {s : FilterSection} :
    Chain.Counts [] l s ↔ IsFirst FilterSection.name l s := by
  simp [Chain.Counts]

theorem Stands.segment_of_nil (stands : Stands config level f) (empty : config.filters = []) :
    f.segment = .restrictive Chain.fallbackName := by
  obtain ⟨c, built, closed⟩ := stands.chain
  obtain ⟨n, -, -, found⟩ := stands.segment
  rw [empty, Chain.addSections] at built
  cases built
  rw [closed] at found
  have mem := List.mem_of_find?_eq_some found
  exact List.mem_singleton.1 mem

theorem Stands.rules (stands : Stands config level f) (filled : config.filters ≠ []) :
    ∃ s, FilterSection.Rules config.filters level s ∧ f.segment.Follows f.registry s := by
  obtain ⟨c, built, closed⟩ := stands.chain
  obtain ⟨n, rfl, high, found⟩ := stands.segment
  obtain ⟨ordered, described, mem⟩ := Chain.addSections_ok built List.Pairwise.nil
  simp only [counts_nil] at described mem
  have member : ∀ s, IsFirst FilterSection.name config.filters s → ∃ t ∈ c.segments, s.level = t.levelMax := by
    intro s first
    obtain ⟨t, ok⟩ := described s first
    obtain ⟨u, inside, rfl⟩ := List.mem_map.1 ((mem t).2 (Or.inr ⟨s, first, ok⟩))
    exact ⟨u, inside, (Segment.ofSection_ok ok).2.2.1⟩
  have nonempty : c.segments ≠ [] := by
    obtain ⟨s, first⟩ := exists_isFirst FilterSection.name filled
    obtain ⟨t, inside, -⟩ := member s first
    exact List.ne_nil_of_mem inside
  obtain ⟨t, top, responsible, reached⟩ := Chain.find?_closeSegments nonempty ordered high
  rw [closed, Chain.close, reached, Option.some.injEq] at found
  obtain ⟨s, first, ok⟩ := ((mem t.unplaced).1 (List.mem_map_of_mem responsible.is)).resolve_left List.not_mem_nil
  obtain ⟨follows, -, same, -, -⟩ := Segment.ofSection_ok ok
  have same : s.level = t.levelMax := same
  refine ⟨s, ⟨first, fun reaches u first' reaches' => ?_, fun short u first' => ?_⟩, ?_⟩
  · obtain ⟨v, inside, level⟩ := member u first'
    rw [same] at reaches ⊢
    rw [level] at reaches' ⊢
    exact responsible.least reaches v inside reaches'
  · obtain ⟨v, inside, level⟩ := member u first'
    rw [same] at short ⊢
    rw [level]
    exact responsible.greatest short v inside
  · rw [← found]
    exact ⟨follows.clients, follows.controls, follows.injections, follows.known⟩

theorem Stands.eq_of_level (stands : Stands config level f) {s t : FilterSection}
    (first : IsFirst FilterSection.name config.filters s) (first' : IsFirst FilterSection.name config.filters t)
    (same : s.level = t.level) : s = t := by
  obtain ⟨c, built, -⟩ := stands.chain
  obtain ⟨ordered, described, mem⟩ := Chain.addSections_ok built List.Pairwise.nil
  simp only [counts_nil] at described mem
  obtain ⟨a, ok⟩ := described s first
  obtain ⟨b, ok'⟩ := described t first'
  obtain ⟨u, inside, rfl⟩ := List.mem_map.1 ((mem a).2 (Or.inr ⟨s, first, ok⟩))
  obtain ⟨v, inside', rfl⟩ := List.mem_map.1 ((mem b).2 (Or.inr ⟨t, first', ok'⟩))
  obtain ⟨-, name, level, -, -⟩ := Segment.ofSection_ok ok
  obtain ⟨-, name', level', -, -⟩ := Segment.ofSection_ok ok'
  have distinct : (c.segments.map (·.levelMax)).Nodup :=
    List.pairwise_map.2 (ordered.imp fun below => Nat.ne_of_lt below)
  have top : u.levelMax = v.levelMax := by
    have level : s.level = u.levelMax := level
    have level' : t.level = v.levelMax := level'
    omega
  obtain rfl := List.inj_on_of_nodup_map distinct inside inside' top
  exact first.eq first' (name.symm.trans name')

theorem Stands.find?_registry (stands : Stands config level f) {name : String} {i : Injection} :
    f.registry.find? name = some i ↔ ∃ s, IsFirst InjectionSection.name config.injections s ∧ s.name = name ∧
      Injection.ofSection s = .ok i := by
  rw [Registry.find?_addSections stands.registry]
  simp [Registry.find?]

theorem anyMatches_of_known {registry : Registry} {names : List String}
    (known : ∀ name ∈ names, registry.contains name = true) (app context node : String) (id : Nat) :
    ∃ answer, anyMatches registry app context node id names = .ok answer ∧
      (answer = true ↔ ∃ name ∈ names, ∃ i, registry.find? name = some i ∧ i.Matches app context node id) := by
  induction names with
  | nil => exact ⟨false, rfl, by simp⟩
  | cons name names ih =>
      obtain ⟨answer, rest, iff⟩ := ih fun n mem => known n (List.mem_cons_of_mem _ mem)
      obtain ⟨i, found⟩ := Option.isSome_iff_exists.1 (known name List.mem_cons_self)
      unfold anyMatches
      rw [found]
      dsimp only
      split
      · rename_i hit
        exact ⟨true, rfl, iff_of_true rfl ⟨name, List.mem_cons_self, i, found, hit⟩⟩
      · rename_i miss
        refine ⟨answer, rest, iff.trans ?_⟩
        simp [found, miss]

/-- What a filter decides: which connections may be active, which control services are served and which
injections are let through. Only what is no control service is an error. -/
structure Decides (f : MessageFilter) (connection : Kind → Prop) (control : Nat → Prop)
    (injection : String → String → String → Nat → Prop) : Prop where
  connections : ∀ kind, kind ∈ f.allowed ↔ connection kind
  illegal : ∀ id, (∃ e, f.controlAllowed id = .error e) ↔ ¬Service.Legal id
  controls : ∀ id, f.controlAllowed id = .ok true ↔ Service.Legal id ∧ control id
  injections : ∀ app context node id, ∃ answer, f.injectionAllowed app context node id = .ok answer ∧
    (answer = true ↔ injection app context node id)

theorem controlAllowed_error_iff {id : Nat} : (∃ e, f.controlAllowed id = .error e) ↔ ¬Service.Legal id := by
  simp [controlAllowed, ServiceSet.test_eq_error_iff]

theorem decides_of_restrictive {name : String} (segment : f.segment = .restrictive name) :
    f.Decides (· ∈ KindSet.standing) (fun _ => False) fun _ _ _ _ => False where
  connections kind := by
    rw [allowed, segment, Segment.restrictive]
  illegal _ := controlAllowed_error_iff
  controls id := by
    rw [controlAllowed, segment, Segment.restrictive, ← ServiceSet.mem_def]
    simp [ServiceSet.not_mem_empty]
  injections app context node id := by
    rw [injectionAllowed, segment, Segment.restrictive]
    exact ⟨false, rfl, by simp⟩

theorem Stands.decides (stands : Stands config level f) {s : FilterSection} (follows : f.segment.Follows f.registry s) :
    f.Decides s.Admits s.Serves (s.Passes config.injections) where
  connections kind := by
    rw [allowed, follows.clients, mem_clients, FilterSection.Admits]
  illegal _ := controlAllowed_error_iff
  controls id := by
    rw [controlAllowed, follows.controls, ← ServiceSet.mem_def, mem_controls, FilterSection.Serves]
  injections app context node id := by
    have known := follows.known
    have listed : ∀ name, name ∈ f.segment.injections.spelled ↔ Lists s.injections name.toList := by
      intro name
      rw [follows.injections, mem_spelled]
    have star : f.segment.injections = .all ↔ IsStar s.injections := by
      rw [follows.injections, injections_eq_all_iff]
    rw [injectionAllowed, FilterSection.Passes]
    cases whitelist : f.segment.injections with
    | all => exact ⟨true, rfl, iff_of_true rfl (Or.inl (star.1 whitelist))⟩
    | nothing =>
        have silent : ¬IsStar s.injections := fun all => by simp [star.2 all] at whitelist
        refine ⟨false, rfl, iff_of_false (by simp) ?_⟩
        rintro (all | ⟨i, -, mem, -⟩)
        · exact silent all
        · rw [← listed, whitelist] at mem
          cases mem
    | names l =>
        have silent : ¬IsStar s.injections := fun all => by simp [star.2 all] at whitelist
        rw [whitelist] at known listed
        obtain ⟨answer, ok, iff⟩ := anyMatches_of_known known app context node id
        refine ⟨answer, ok, iff.trans ?_⟩
        constructor
        · rintro ⟨name, mem, i, found, matching⟩
          obtain ⟨t, first, rfl, built⟩ := stands.find?_registry.1 found
          exact Or.inr ⟨t, first, (listed t.name).1 mem, (Injection.matches_iff built).1 matching⟩
        · rintro (all | ⟨t, first, mem, reaches⟩)
          · exact absurd all silent
          · have mem := (listed t.name).2 mem
            obtain ⟨i, found⟩ := Option.isSome_iff_exists.1 (known t.name mem)
            obtain ⟨u, first', same, built⟩ := stands.find?_registry.1 found
            obtain rfl := first'.eq first same
            exact ⟨u.name, mem, i, found, (Injection.matches_iff built).2 reaches⟩

/-- The filter decides as the section that is responsible for the level asks for. Without a section it
allows the standing connections only. -/
theorem LevelRun.decides_as_configured (run : LevelRun config level f) :
    (config.filters = [] → f.Decides (· ∈ KindSet.standing) (fun _ => False) fun _ _ _ _ => False) ∧
    (config.filters ≠ [] → ∃ s, FilterSection.Rules config.filters level s ∧
      (∀ t, FilterSection.Rules config.filters level t → t = s) ∧
      f.Decides s.Admits s.Serves (s.Passes config.injections)) := by
  have stands := run.stands
  refine ⟨fun empty => decides_of_restrictive (stands.segment_of_nil empty), fun filled => ?_⟩
  obtain ⟨s, rules, follows⟩ := stands.rules filled
  refine ⟨s, rules, fun t rules' => ?_, stands.decides follows⟩
  exact stands.eq_of_level rules'.is rules.is (rules'.top_eq rules)

end MessageFilter

namespace Widening

open MessageFilter

def top : FilterSection := { name := "top", level := 80, clients := "TCP, Trace", controlMessages := "*", injections := "Diag" }

def config : Config where
  general := { name := "widening", defaultLevel := 0 }
  filters := [{ name := "quiet", level := 40, controlMessages := "0xF0A" }, top, { name := "quiet", level := 90, clients := "*" }]
  injections := [{ name := "Diag", app := " APP ", context := "CTX", node := "ECU", serviceIds := "4096, +4097" }]

theorem top_rules : FilterSection.Rules config.filters 95 top := by
  refine ⟨by decide, fun reaches => absurd reaches (by decide), fun _ s first => ?_⟩
  have mem : s ∈ config.filters := List.mem_of_find?_eq_some first
  rcases List.mem_cons.1 mem with rfl | mem
  · decide
  · rcases List.mem_cons.1 mem with rfl | mem
    · decide
    · obtain rfl := List.mem_singleton.1 mem
      exact absurd first (by decide)

theorem top_decides : ∃ f, LevelRun config 95 f ∧ f.Decides top.Admits top.Serves (top.Passes config.injections) := by
  have built : (do let f ← ofConfig config; f.changeLevel 95).isOk = true := by decide +kernel
  rcases outcome : (do let f ← ofConfig config; f.changeLevel 95) with e | ⟨change, g⟩
  · rw [outcome] at built
    cases built
  · obtain ⟨f, start, accepted⟩ := bind_eq_ok.1 outcome
    have run := (LevelRun.start start).accepted accepted
    obtain ⟨s, -, unique, decides⟩ := (LevelRun.decides_as_configured run).2 (by decide)
    obtain rfl := unique top top_rules
    exact ⟨g, run, decides⟩

end Widening

end TraceGate.Filter
