import Mathlib.Data.List.Induction
import Wnet.DateTime.Zone

/-!
# Objects that share one broken-down time

All objects point to the structure that `localtime` fills, so each construction
replaces what the getters of the earlier objects show. They still show the local
time of their own seconds only if it is that of the last object.
-/

namespace Wnet.DateTime

open Foundation Config

variable {lib : CLibrary}

/-- The ways to get an object, with what `time` returns and what `tmVar` holds where they are
used. -/
inductive Construction
  | default (clock : Int)
  | ofTm (tm : Tm)
  | ofSeconds (seconds : Int)
  | fromStr (str : Bytes) (format : TimeFormat) (clock : Int) (uninitialised : Tm)

/-- The memory and the objects made so far, the first one first. -/
structure World where
  memory : Memory
  objects : List CDateTime

def Construction.make (lib : CLibrary) (memory : Memory) : Construction → Memory × CDateTime
  | .default clock => CDateTime.new lib memory clock
  | .ofTm tm => CDateTime.ofTm lib memory tm
  | .ofSeconds seconds => CDateTime.ofSeconds lib memory seconds
  | .fromStr str format clock uninitialised =>
      CDateTime.getDateTimeFromStr lib memory clock uninitialised str format

def World.construct (lib : CLibrary) (world : World) (construction : Construction) : World :=
  let (memory, object) := construction.make lib world.memory
  ⟨memory, world.objects ++ [object]⟩

/-- The world after some constructions. -/
def constructAll (lib : CLibrary) (memory : Memory) (constructions : List Construction) : World :=
  constructions.foldl (World.construct lib) ⟨memory, []⟩

/-- The seconds that a construction is for. -/
def Construction.seconds (lib : CLibrary) : Construction → Int
  | .default clock => clock
  | .ofTm tm => lib.mktime tm
  | .ofSeconds seconds => seconds
  | .fromStr str format clock uninitialised =>
      if (fieldsOf str format).year ≠ 0 then lib.mktime ((fieldsOf str format).toTm uninitialised)
      else clock

/-- What the getters show is the local time of the object's own seconds. -/
structure ShowsOwn (lib : CLibrary) (memory : Memory) (object : CDateTime) : Prop where
  year : object.getYear memory = (lib.brokenDown object.getSeconds).year + 1900
  month : object.getMonth memory = (lib.brokenDown object.getSeconds).mon + 1
  day : object.getDay memory = (lib.brokenDown object.getSeconds).yday + 1
  dayInMonth : object.getDayInMonth memory = (lib.brokenDown object.getSeconds).mday
  dayInWeek : object.getDayInWeek memory = (lib.brokenDown object.getSeconds).wday
  timeStr : ∀ format, object.getTimeStr memory format =
    strftime (lib.brokenDown object.getSeconds) format.pattern.toList

/-- Two broken-down times that differ in the daylight saving flag at most. -/
def Tm.SameTime (first second : Tm) : Prop :=
  { first with isdst := 0 } = { second with isdst := 0 }

instance (first second : Tm) : Decidable (first.SameTime second) :=
  inferInstanceAs (Decidable (_ = _))

theorem Tm.SameTime.symm {first second : Tm} (hsame : first.SameTime second) :
    second.SameTime first := Eq.symm hsame

theorem Tm.SameTime.trans {first second third : Tm} (hfirst : first.SameTime second)
    (hsecond : second.SameTime third) : first.SameTime third := Eq.trans hfirst hsecond

/-! ## What is shown -/

/-- The text of a time does not depend on the flag. -/
theorem Tm.SameTime.strftime_eq {first second : Tm} (hsame : first.SameTime second)
    (pattern : List Char) : strftime first pattern = strftime second pattern := by
  obtain ⟨sec, min, hour, mday, mon, year, wday, yday, isdst⟩ := first
  obtain ⟨sec', min', hour', mday', mon', year', wday', yday', isdst'⟩ := second
  simp only [SameTime, Tm.mk.injEq, and_true] at hsame
  obtain ⟨rfl, rfl, rfl, rfl, rfl, rfl, rfl, rfl⟩ := hsame
  induction pattern using strftime.induct with
  | case1 specifier rest ih =>
      rw [strftime, strftime, ih]
      rfl
  | case2 char rest hchar ih => rw [strftime, strftime, ih] <;> exact hchar
  | case3 => rfl

/-- Two numerals in front of two texts. -/
theorem numeral_append_inj {width first second : Nat} {left right : Bytes}
    (hfirst : first < 10 ^ width) (hsecond : second < 10 ^ width)
    (htext : numeral width first ++ left = numeral width second ++ right) :
    first = second ∧ left = right := by
  obtain ⟨hnumeral, hrest⟩ := List.append_inj htext (by simp)
  exact ⟨numeral_inj hfirst hsecond hnumeral, hrest⟩

/-- The time of the day is in the text that starts with the date. -/
theorem time_of_strftime {first second : Tm} (hfirst : first.Normal) (hsecond : second.Normal)
    (hyear : first.year = second.year) (hmon : first.mon = second.mon)
    (hmday : first.mday = second.mday)
    (htext : strftime first "%Y%m%d%H%M%S".toList = strftime second "%Y%m%d%H%M%S".toList) :
    first.hour = second.hour ∧ first.min = second.min ∧ first.sec = second.sec := by
  have hexpanded : ∀ tm : Tm, strftime tm "%Y%m%d%H%M%S".toList =
      ascii (toString (tm.year + 1900)) ++ (numeral 2 (tm.mon + 1).toNat ++
        (numeral 2 tm.mday.toNat ++ (numeral 2 tm.hour.toNat ++ (numeral 2 tm.min.toNat ++
          (numeral 2 tm.sec.toNat ++ []))))) := fun _ => rfl
  obtain ⟨hsecRange, hminRange, hhourRange, -, -⟩ := hfirst
  obtain ⟨hsecRange', hminRange', hhourRange', -, -⟩ := hsecond
  rw [hexpanded, hexpanded, hyear, hmon, hmday] at htext
  have hclock := List.append_cancel_left (List.append_cancel_left (List.append_cancel_left htext))
  obtain ⟨hhour, hafterHour⟩ := numeral_append_inj (by omega) (by omega) hclock
  obtain ⟨hmin, hafterMin⟩ := numeral_append_inj (by omega) (by omega) hafterHour
  obtain ⟨hsec, -⟩ := numeral_append_inj (by omega) (by omega) hafterMin
  omega

/-- An object shows its own time if and only if the memory has it, up to the flag. -/
theorem showsOwn_iff {memory : Memory} {object : CDateTime}
    (hnormal : (memory object.time).Normal) :
    ShowsOwn lib memory object ↔
      (memory object.time).SameTime (lib.brokenDown object.seconds) := by
  constructor
  · rintro ⟨hyear, hmonth, hday, hmday, hwday, htext⟩
    have hyear' : (memory object.time).year = (lib.brokenDown object.seconds).year :=
      add_right_cancel hyear
    have hmon : (memory object.time).mon = (lib.brokenDown object.seconds).mon :=
      add_right_cancel hmonth
    have hyday : (memory object.time).yday = (lib.brokenDown object.seconds).yday :=
      add_right_cancel hday
    have hmday' : (memory object.time).mday = (lib.brokenDown object.seconds).mday := hmday
    have hwday' : (memory object.time).wday = (lib.brokenDown object.seconds).wday := hwday
    -- No getter shows the time of the day, but a text does.
    obtain ⟨hhour, hmin, hsec⟩ := time_of_strftime hnormal (lib.normal object.seconds) hyear' hmon
      hmday' (htext .yyyyMMddHHmmss)
    simp only [Tm.SameTime, hyear', hmon, hyday, hmday', hwday', hhour, hmin, hsec]
  · intro hsame
    have hfields := hsame
    simp only [Tm.SameTime, Tm.mk.injEq, and_true] at hfields
    obtain ⟨-, -, -, hmday, hmon, hyear, hwday, hyday⟩ := hfields
    exact ⟨congrArg (· + 1900) hyear, congrArg (· + 1) hmon, congrArg (· + 1) hyday, hmday, hwday,
      fun format => hsame.strftime_eq _⟩

/-! ## Runs -/

/-- Each construction fills the structure and points the new object to it. -/
theorem make_eq (memory : Memory) (construction : Construction) :
    construction.make lib memory =
      (Function.update memory lib.staticTm (lib.brokenDown (construction.seconds lib)),
        ⟨lib.staticTm, construction.seconds lib⟩) := by
  cases construction with
  | default clock => rfl
  | ofTm tm => rfl
  | ofSeconds seconds => rfl
  | fromStr str format clock uninitialised =>
      simp only [Construction.make, CDateTime.getDateTimeFromStr, Construction.seconds]
      split
      · rfl
      · rfl

theorem constructAll_concat (memory : Memory) (done : List Construction) (last : Construction) :
    constructAll lib memory (done ++ [last]) =
      (constructAll lib memory done).construct lib last := by
  simp [constructAll]

/-- All objects point to the same structure, and differ in their seconds only. -/
theorem objects_constructAll (memory : Memory) (done : List Construction) :
    (constructAll lib memory done).objects =
      done.map fun construction => ⟨lib.staticTm, construction.seconds lib⟩ := by
  induction done using List.reverseRecOn with
  | nil => rfl
  | append_singleton done last ih =>
      rw [constructAll_concat, World.construct, make_eq, List.map_append, ih]
      rfl

/-- The structure has the time of the last object. -/
theorem memory_constructAll (memory : Memory) (done : List Construction) (last : Construction) :
    (constructAll lib memory (done ++ [last])).memory lib.staticTm =
      lib.brokenDown (last.seconds lib) := by
  rw [constructAll_concat, World.construct, make_eq]
  exact Function.update_self ..

/-- What the objects show after the last construction. -/
theorem showsOwn_constructAll_iff (memory : Memory) (done : List Construction)
    (last : Construction) :
    (∀ object ∈ (constructAll lib memory (done ++ [last])).objects,
      ShowsOwn lib (constructAll lib memory (done ++ [last])).memory object) ↔
    ∀ construction ∈ done ++ [last], (lib.brokenDown (last.seconds lib)).SameTime
      (lib.brokenDown (construction.seconds lib)) := by
  have hmemory := @memory_constructAll lib memory done last
  rw [objects_constructAll, List.forall_mem_map]
  refine forall₂_congr fun construction _ => ?_
  rw [showsOwn_iff (hmemory ▸ lib.normal _), hmemory]

/-- Every object shows the local time of its own seconds all the time, if and only if the local
times of all objects agree up to the daylight saving flag. -/
theorem showsOwn_always_iff (lib : CLibrary) (memory : Memory)
    (constructions : List Construction) :
    (∀ done rest, constructions = done ++ rest →
      ∀ object ∈ (constructAll lib memory done).objects,
        ShowsOwn lib (constructAll lib memory done).memory object) ↔
    ∀ first ∈ constructions, ∀ second ∈ constructions,
      (lib.brokenDown (first.seconds lib)).SameTime (lib.brokenDown (second.seconds lib)) := by
  constructor
  · intro hshows first hfirst second hsecond
    -- All objects show the last time, so each agrees with it and any two with each other.
    have hend := hshows constructions [] (by simp)
    obtain ⟨done, last, rfl⟩ :=
      (List.eq_nil_or_concat' constructions).resolve_left (List.ne_nil_of_mem hfirst)
    rw [showsOwn_constructAll_iff] at hend
    exact (hend first hfirst).symm.trans (hend second hsecond)
  · rintro hsame done rest rfl
    rcases List.eq_nil_or_concat' done with rfl | ⟨before, last, rfl⟩
    · simp [constructAll]
    · rw [showsOwn_constructAll_iff]
      intro construction hconstruction
      exact hsame last (by simp) construction (List.mem_append_left _ hconstruction)

/-- One day and the next: the first object shows the second day. -/
theorem showsOwn_fails :
    let world := constructAll (fixedOffset 0) (fun _ => gmtime 0) [.ofSeconds 0, .ofSeconds 86400]
    ¬ ∀ object ∈ world.objects, ShowsOwn (fixedOffset 0) world.memory object := by
  intro world hshows
  have hobjects : world.objects = [⟨0, 0⟩, ⟨0, 86400⟩] := rfl
  have hday := (hshows ⟨0, 0⟩ (hobjects ▸ List.mem_cons_self)).dayInMonth
  revert hday
  decide

end Wnet.DateTime
