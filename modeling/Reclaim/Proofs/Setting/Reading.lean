import Reclaim.Proofs.Setting.Grammar

/-! What reading settings comes to. Of the variables that are set to a text that they do not accept the first
one is reported, with its text as it stands. If there is none, each setting is what its variable says,
or what it is by default. -/

namespace Reclaim

def Variable.isFlag : Variable → Bool
  | .concurrentSweeping | .parallelSweeping => true
  | .sweeperThreads | .poolSize => false

namespace Lookup

inductive Rejects (lookup : Lookup) (which : Variable) : SettingError → Prop
  | flag {text : String} (kind : which.isFlag = true) (set : lookup which.name = some text)
      (unread : ∀ flag, ¬ FlagText text flag) : Rejects lookup which (.notFlag which text)
  | count {text : String} (kind : which.isFlag = false) (set : lookup which.name = some text)
      (unread : ∀ count, ¬ CountText text count) : Rejects lookup which (.notCount which text)

def FirstRejected (lookup : Lookup) (order : List Variable) (error : SettingError) : Prop :=
  ∃ early which late, order = early ++ which :: late ∧
    (∀ other ∈ early, ∀ error, ¬ lookup.Rejects other error) ∧ lookup.Rejects which error

def Says {α : Type} (lookup : Lookup) (which : Variable) (Accepts : String → α → Prop)
    (default value : α) : Prop :=
  match lookup which.name with
  | none => value = default
  | some text => Accepts text value

def value {α : Type} (lookup : Lookup) (which : Variable) (default : α) (parse : String → Option α)
    (refuse : String → SettingError) : Except SettingError α :=
  match lookup which.name with
  | none => .ok default
  | some text =>
      match parse text with
      | none => .error (refuse text)
      | some value => .ok value

variable {lookup : Lookup} {which : Variable} {rest order : List Variable} {error : SettingError}

theorem flag_eq (lookup : Lookup) (which : Variable) (default : Bool) :
    lookup.flag which default = lookup.value which default flag? (.notFlag which) := by
  unfold Lookup.flag Lookup.value
  cases lookup which.name with
  | none => rfl
  | some text =>
      dsimp only
      cases flag? text <;> rfl

theorem count_eq (lookup : Lookup) (which : Variable) (default : Nat) :
    lookup.count which default = lookup.value which default count? (.notCount which) := by
  unfold Lookup.count Lookup.value
  cases lookup which.name with
  | none => rfl
  | some text =>
      dsimp only
      cases count? text <;> rfl

section

variable {α : Type} {default value : α} {parse : String → Option α} {refuse : String → SettingError}
  {Accepts : String → α → Prop}

theorem value_eq_ok (exact : ∀ {text value}, parse text = some value ↔ Accepts text value) :
    lookup.value which default parse refuse = .ok value ↔
      lookup.Says which Accepts default value := by
  unfold Lookup.value Says
  cases lookup which.name with
  | none => exact ⟨fun same => (Except.ok.inj same).symm, fun same => same ▸ rfl⟩
  | some text =>
      dsimp only
      rw [← exact]
      cases parse text <;> simp

theorem value_eq_error (exact : ∀ {text value}, parse text = some value ↔ Accepts text value) :
    lookup.value which default parse refuse = .error error ↔
      ∃ text, lookup which.name = some text ∧ (∀ value, ¬ Accepts text value) ∧
        error = refuse text := by
  unfold Lookup.value
  cases lookup which.name with
  | none => simp
  | some text =>
      simp only [Option.some.injEq, exists_eq_left', ← exact]
      cases parse text <;> simp [eq_comm]

end

theorem flag_eq_error (kind : which.isFlag = true) (default : Bool) (error : SettingError) :
    lookup.flag which default = .error error ↔ lookup.Rejects which error := by
  rw [flag_eq, value_eq_error flag?_eq_some]
  constructor
  · rintro ⟨text, set, unread, rfl⟩
    exact .flag kind set unread
  · intro rejects
    cases rejects with
    | flag _ set unread => exact ⟨_, set, unread, rfl⟩
    | count counted => simp [kind] at counted

theorem count_eq_error (kind : which.isFlag = false) (default : Nat) (error : SettingError) :
    lookup.count which default = .error error ↔ lookup.Rejects which error := by
  rw [count_eq, value_eq_error count?_eq_some]
  constructor
  · rintro ⟨text, set, unread, rfl⟩
    exact .count kind set unread
  · intro rejects
    cases rejects with
    | flag flagged => simp [kind] at flagged
    | count _ set unread => exact ⟨_, set, unread, rfl⟩

theorem firstRejected_cons : lookup.FirstRejected (which :: rest) error ↔
    lookup.Rejects which error ∨
      (∀ error, ¬ lookup.Rejects which error) ∧ lookup.FirstRejected rest error := by
  constructor
  · rintro ⟨early, other, late, split, accepted, rejects⟩
    cases early with
    | nil =>
        obtain ⟨rfl, rfl⟩ := List.cons.inj split
        exact .inl rejects
    | cons first early =>
        obtain ⟨rfl, rfl⟩ := List.cons.inj split
        obtain ⟨here, later⟩ := List.forall_mem_cons.mp accepted
        exact .inr ⟨here, early, other, late, rfl, later, rejects⟩
  · rintro (rejects | ⟨here, early, other, late, rfl, later, rejects⟩)
    · exact ⟨[], which, rest, rfl, nofun, rejects⟩
    · exact ⟨which :: early, other, late, rfl, List.forall_mem_cons.mpr ⟨here, later⟩, rejects⟩

theorem not_firstRejected_nil : ¬ lookup.FirstRejected [] error := by
  rintro ⟨early, which, late, split, _⟩
  simp at split

theorem ok_eq_error {α : Type} (value : α) (error : SettingError) :
    .ok value = Except.error error ↔ lookup.FirstRejected [] error :=
  iff_of_false nofun not_firstRejected_nil

theorem exists_firstRejected : (∃ error, lookup.FirstRejected order error) ↔
    ∃ which ∈ order, ∃ error, lookup.Rejects which error := by
  induction order with
  | nil => simp [not_firstRejected_nil]
  | cons which rest ih =>
      simp only [firstRejected_cons, List.mem_cons, exists_eq_or_imp, ← ih]
      by_cases here : ∃ error, lookup.Rejects which error
      · obtain ⟨error, rejects⟩ := here
        exact iff_of_true ⟨error, .inl rejects⟩ (.inl ⟨error, rejects⟩)
      · have none := not_exists.mp here
        simp [none]

theorem bind_eq_error {α β : Type} {first : Except SettingError α} {next : α → Except SettingError β}
    (refuses : ∀ error, first = .error error ↔ lookup.Rejects which error)
    (later : ∀ value error, next value = .error error ↔ lookup.FirstRejected rest error)
    (error : SettingError) :
    first >>= next = .error error ↔ lookup.FirstRejected (which :: rest) error := by
  rw [firstRejected_cons]
  simp only [← refuses]
  cases first with
  | error reported => simp [bind, Except.bind]
  | ok value => simpa [bind, Except.bind] using later value error

theorem bind_eq_ok {α β : Type} {first : Except SettingError α} {next : α → Except SettingError β}
    {result : β} :
    first >>= next = .ok result ↔ ∃ value, first = .ok value ∧ next value = .ok result := by
  cases first with
  | error reported => simp [bind, Except.bind]
  | ok value => simp [bind, Except.bind]

end Lookup

structure Reads {α : Type} (read : Lookup → Except SettingError α) (order : List Variable)
    (Said : Lookup → α → Prop) : Prop where
  fails : ∀ lookup, (∃ error, read lookup = .error error) ↔
    ∃ which ∈ order, ∃ error, lookup.Rejects which error
  reports : ∀ lookup error, read lookup = .error error ↔ lookup.FirstRejected order error
  succeeds : ∀ lookup setting, read lookup = .ok setting ↔ Said lookup setting
  others : ∀ lookup other : Lookup,
    (∀ which ∈ order, lookup which.name = other which.name) → read lookup = read other

def SweepSetting.Said (lookup : Lookup) (setting : SweepSetting) : Prop :=
  lookup.Says .concurrentSweeping FlagText true setting.concurrent ∧
    lookup.Says .parallelSweeping FlagText false setting.parallel ∧
    lookup.Says .sweeperThreads CountText 0 setting.threads

def PoolSetting.Said (lookup : Lookup) (setting : PoolSetting) : Prop :=
  lookup.Says .poolSize CountText 0 setting.threads

namespace SweepSetting

variable (lookup : Lookup)

theorem read_eq_error (error : SettingError) : read lookup = .error error ↔
    lookup.FirstRejected [.concurrentSweeping, .parallelSweeping, .sweeperThreads] error := by
  unfold read
  refine Lookup.bind_eq_error (Lookup.flag_eq_error rfl _) (fun _ => ?_) error
  refine Lookup.bind_eq_error (Lookup.flag_eq_error rfl _) fun _ => ?_
  exact Lookup.bind_eq_error (Lookup.count_eq_error rfl _) fun _ => Lookup.ok_eq_error _

theorem read_eq_ok (setting : SweepSetting) :
    read lookup = .ok setting ↔ Said lookup setting := by
  have parts : read lookup = .ok setting ↔
      lookup.flag .concurrentSweeping true = .ok setting.concurrent ∧
      lookup.flag .parallelSweeping false = .ok setting.parallel ∧
      lookup.count .sweeperThreads 0 = .ok setting.threads := by
    obtain ⟨concurrent, parallel, threads⟩ := setting
    unfold read
    simp only [Lookup.bind_eq_ok, pure, Except.pure, Except.ok.injEq, mk.injEq]
    constructor
    · rintro ⟨_, first, _, second, _, third, rfl, rfl, rfl⟩
      exact ⟨first, second, third⟩
    · rintro ⟨first, second, third⟩
      exact ⟨_, first, _, second, _, third, rfl, rfl, rfl⟩
  rw [parts, Lookup.flag_eq, Lookup.flag_eq, Lookup.count_eq, Lookup.value_eq_ok flag?_eq_some,
    Lookup.value_eq_ok flag?_eq_some, Lookup.value_eq_ok count?_eq_some]
  rfl

theorem reads :
    Reads read [.concurrentSweeping, .parallelSweeping, .sweeperThreads] Said where
  fails lookup := by
    simp only [read_eq_error]
    exact Lookup.exists_firstRejected
  reports := read_eq_error
  succeeds := read_eq_ok
  others lookup other same := by
    simp only [List.forall_mem_cons] at same
    obtain ⟨concurrent, parallel, threads, _⟩ := same
    unfold read Lookup.flag Lookup.count
    rw [concurrent, parallel, threads]

end SweepSetting

namespace PoolSetting

variable (lookup : Lookup)

theorem read_eq_error (error : SettingError) :
    read lookup = .error error ↔ lookup.FirstRejected [.poolSize] error := by
  unfold read
  exact Lookup.bind_eq_error (Lookup.count_eq_error rfl _) (fun _ => Lookup.ok_eq_error _) error

theorem read_eq_ok (setting : PoolSetting) : read lookup = .ok setting ↔ Said lookup setting := by
  have part : read lookup = .ok setting ↔ lookup.count .poolSize 0 = .ok setting.threads := by
    obtain ⟨threads⟩ := setting
    unfold read
    simp only [Lookup.bind_eq_ok, pure, Except.pure, Except.ok.injEq, mk.injEq]
    exact ⟨fun ⟨_, first, same⟩ => same ▸ first, fun first => ⟨_, first, rfl⟩⟩
  rw [part, Lookup.count_eq, Lookup.value_eq_ok count?_eq_some]
  rfl

theorem reads : Reads read [.poolSize] Said where
  fails lookup := by
    simp only [read_eq_error]
    exact Lookup.exists_firstRejected
  reports := read_eq_error
  succeeds := read_eq_ok
  others lookup other same := by
    unfold read Lookup.count
    rw [same _ (List.mem_singleton_self _)]

end PoolSetting

/-- Settings are read exactly as the grammar has it, and every count in the word can be written. -/
theorem settings_read :
    Reads SweepSetting.read [.concurrentSweeping, .parallelSweeping, .sweeperThreads]
      SweepSetting.Said ∧
    Reads PoolSetting.read [.poolSize] PoolSetting.Said ∧
    (∀ text flag, flag? text = some flag ↔ FlagText text flag) ∧
    (∀ text count, count? text = some count ↔ CountText text count) ∧
    ∀ (before after sign : List Char) (zeros count : Nat),
      (∀ character ∈ before, Text.isBlank character = true) →
      (∀ character ∈ after, Text.isBlank character = true) →
      sign = [] ∨ sign = ['+'] → count < Word.limit →
      count? (String.ofList
        (before ++ (sign ++ (List.replicate zeros '0' ++ (toString count).toList)) ++ after)) =
          some count := by
  refine ⟨SweepSetting.reads, PoolSetting.reads, fun _ _ => flag?_eq_some,
    fun _ _ => count?_eq_some, ?_⟩
  intro before after sign zeros count blankBefore blankAfter plus small
  exact count?_eq_some.mpr (.written zeros blankBefore blankAfter plus small)

def sampleLookup : Lookup := fun name =>
  [(Variable.concurrentSweeping.name, "\u2003Yes\t"), (Variable.parallelSweeping.name, " ja "),
    (Variable.sweeperThreads.name, "many")].lookup name

/-- The first of the two is reported as it stands. The largest count is read between blanks, with a sign and
zeros before it. -/
theorem sampleLookup_read :
    SweepSetting.read sampleLookup = .error (.notFlag .parallelSweeping " ja ") ∧
    sampleLookup.FirstRejected [.concurrentSweeping, .parallelSweeping, .sweeperThreads]
      (.notFlag .parallelSweeping " ja ") ∧
    count? (String.ofList (['\u3000'] ++ (['+'] ++ (List.replicate 2 '0' ++
      (toString (Word.limit - 1)).toList)) ++ ['\n'])) = some (Word.limit - 1) := by
  obtain ⟨sweep, _, _, _, written⟩ := settings_read
  have read : SweepSetting.read sampleLookup = .error (.notFlag .parallelSweeping " ja ") := by
    decide
  exact ⟨read, (sweep.reports _ _).mp read,
    written ['\u3000'] ['\n'] ['+'] 2 _ (List.forall_mem_singleton.mpr rfl)
      (List.forall_mem_singleton.mpr rfl) (.inr rfl) (by decide)⟩

end Reclaim
