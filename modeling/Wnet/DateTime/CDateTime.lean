import Mathlib.Logic.Function.Basic
import Wnet.Config.Load
import Wnet.Foundation.Decimal

/-!
# Dates and times

A `CDateTime` has its seconds and the pointer that `localtime` returned for them. The
broken-down time itself is in the memory behind that pointer, which is the same for
every call of `localtime`.
-/

namespace Wnet.DateTime

open Foundation Config

/-! ## The C library -/

/-- `struct tm`. -/
structure Tm where
  sec : Int
  min : Int
  hour : Int
  mday : Int
  mon : Int
  year : Int
  wday : Int
  yday : Int
  isdst : Int
  deriving DecidableEq

/-- The ranges of the fields that are printed with two digits. -/
structure Tm.Normal (tm : Tm) : Prop where
  sec : 0 ≤ tm.sec ∧ tm.sec ≤ 60
  min : 0 ≤ tm.min ∧ tm.min ≤ 59
  hour : 0 ≤ tm.hour ∧ tm.hour ≤ 23
  mday : 1 ≤ tm.mday ∧ tm.mday ≤ 31
  mon : 0 ≤ tm.mon ∧ tm.mon ≤ 11

abbrev Address := Nat

abbrev Memory := Address → Tm

/-- The time functions of the C library in some time zone. -/
structure CLibrary where
  /-- The broken-down local time of some seconds. -/
  brokenDown : Int → Tm
  normal : ∀ seconds, (brokenDown seconds).Normal
  mktime : Tm → Int
  /-- Where the one structure is that `localtime` fills. -/
  staticTm : Address

def CLibrary.localtime (lib : CLibrary) (memory : Memory) (seconds : Int) : Memory × Address :=
  (Function.update memory lib.staticTm (lib.brokenDown seconds), lib.staticTm)

/-- The conversions of `strftime` in the C locale, as far as they occur here. -/
def conversion (tm : Tm) : Char → Bytes
  | 'Y' => ascii (toString (tm.year + 1900))
  | 'y' => numeral 2 ((tm.year + 1900) % 100).toNat
  | 'm' => numeral 2 (tm.mon + 1).toNat
  | 'd' => numeral 2 tm.mday.toNat
  | 'H' => numeral 2 tm.hour.toNat
  | 'M' => numeral 2 tm.min.toNat
  | 'S' => numeral 2 tm.sec.toNat
  | _ => []

/-- The text that `strftime` writes. The buffer is larger than any text of the patterns below. -/
def strftime (tm : Tm) : List Char → Bytes
  | '%' :: specifier :: rest => conversion tm specifier ++ strftime tm rest
  | char :: rest => char.toNat.toUInt8 :: strftime tm rest
  | [] => []

def atoi (str : Bytes) : Int :=
  match str.dropWhile isBlank with
  | 45 :: rest => -digitsValue (rest.takeWhile isDigit)
  | 43 :: rest => digitsValue (rest.takeWhile isDigit)
  | rest => digitsValue (rest.takeWhile isDigit)

/-! ## The class -/

inductive TimeFormat
  | yyyyMMddHHmmss
  | yyyy_MM_dd_HH_mm_ss
  | yyMMddHHmmss
  | yy_MM_dd_HH_mm_ss
  | yyyyMMdd_HHmmss
  | yyMMdd_HHmmss
  | maxIndex
  deriving DecidableEq

structure CDateTime where
  time : Address
  seconds : Int

namespace CDateTime

/-- `CDateTime(time_t seconds)`. -/
def ofSeconds (lib : CLibrary) (memory : Memory) (seconds : Int) : Memory × CDateTime :=
  let (memory, time) := lib.localtime memory seconds
  (memory, ⟨time, seconds⟩)

/-- `CDateTime()`, when `time` returns `clock`. -/
def new (lib : CLibrary) (memory : Memory) (clock : Int) : Memory × CDateTime :=
  ofSeconds lib memory clock

/-- `CDateTime(struct tm *pTm)`. -/
def ofTm (lib : CLibrary) (memory : Memory) (tm : Tm) : Memory × CDateTime :=
  ofSeconds lib memory (lib.mktime tm)

section Getters

variable (memory : Memory) (object : CDateTime)

def getYear : Int := (memory object.time).year + 1900

def getMonth : Int := (memory object.time).mon + 1

def getDay : Int := (memory object.time).yday + 1

def getDayInMonth : Int := (memory object.time).mday

def getDayInWeek : Int := (memory object.time).wday

def getSeconds : Int := object.seconds

end Getters

end CDateTime

/-- The pattern that `GetTimeStr` gives to `strftime`. -/
def TimeFormat.pattern : TimeFormat → String
  | yyyyMMddHHmmss => "%Y%m%d%H%M%S"
  | yyyy_MM_dd_HH_mm_ss => "%Y-%m-%d %H:%M:%S"
  | yyMMddHHmmss => "%y%m%d%H%M%S"
  | yy_MM_dd_HH_mm_ss => "%y-%m-%d %H:%M:%S"
  | yyyyMMdd_HHmmss => "%Y%m%d %H%M%S"
  | yyMMdd_HHmmss => "%y%m%d %H%M%S"
  | maxIndex => ""

def CDateTime.getTimeStr (memory : Memory) (object : CDateTime) (format : TimeFormat) : Bytes :=
  strftime (memory object.time) format.pattern.toList

/-! ## Reading a text -/

/-- The variables of `GetDateTimeFromStr`. -/
structure Fields where
  year : Int
  month : Int
  day : Int
  hour : Int
  minute : Int
  second : Int
  deriving DecidableEq

def readAt (str : Bytes) (pos count : Nat) : Int := atoi (cString (substr str pos count))

/-- What is read from a text of the expected length, given the number of digits of the year,
what is added to it, and the positions of the other fields. -/
def readFields (str : Bytes) (expected digits : Nat) (base : Int)
    (month day hour minute second : Nat) : Fields :=
  -- `int length = rStr.size()`
  if (str.length : Int).bmod (2 ^ 32) = expected then
    ⟨readAt str 0 digits + base, readAt str month 2, readAt str day 2, readAt str hour 2,
      readAt str minute 2, readAt str second 2⟩
  else ⟨0, 0, 0, 0, 0, 0⟩

def fieldsOf (str : Bytes) : TimeFormat → Fields
  | .yyyyMMddHHmmss => readFields str 14 4 0 4 6 8 10 12
  | .yyyy_MM_dd_HH_mm_ss => readFields str 19 4 0 5 8 11 14 17
  | .yyMMddHHmmss => readFields str 12 2 2000 2 4 6 8 10
  | .yy_MM_dd_HH_mm_ss => readFields str 17 2 2000 3 6 9 12 15
  | .yyyyMMdd_HHmmss => readFields str 15 4 0 4 6 9 11 13
  | .yyMMdd_HHmmss => readFields str 13 2 2000 2 4 7 9 11
  | .maxIndex => ⟨0, 0, 0, 0, 0, 0⟩

/-- `tmVar` filled with the fields; the day of the week and of the year stay what they were. -/
def Fields.toTm (fields : Fields) (uninitialised : Tm) : Tm :=
  { uninitialised with
    year := fields.year - 1900
    mon := fields.month - 1
    mday := fields.day
    hour := fields.hour
    min := fields.minute
    sec := fields.second
    isdst := 0 }

def CDateTime.getDateTimeFromStr (lib : CLibrary) (memory : Memory) (clock : Int)
    (uninitialised : Tm) (str : Bytes) (format : TimeFormat) : Memory × CDateTime :=
  let fields := fieldsOf str format
  if fields.year ≠ 0 then ofTm lib memory (fields.toTm uninitialised)
  else new lib memory clock

end Wnet.DateTime
