import Wnet.DateTime.CDateTime
import Wnet.Foundation.Calendar

/-!
# Time zones with a fixed offset

In a zone without daylight saving `mktime` is the inverse of `localtime`. The
Gregorian calendar at a fixed distance from UTC is such a zone.
-/

namespace Wnet.DateTime

open Foundation Foundation.Calendar

/-- What is assumed of the zone: there is no daylight saving, and `mktime`, which does not look
at the day of the week and of the year, finds the seconds again. -/
structure FixedZone (lib : CLibrary) : Prop where
  standard : ∀ seconds, (lib.brokenDown seconds).isdst = 0
  mktime_brokenDown : ∀ seconds wday yday,
    lib.mktime { lib.brokenDown seconds with wday := wday, yday := yday } = seconds

/-- The count of the first of January 1970. -/
def epoch : Int := 719162

/-- The broken-down time of some seconds after the epoch, in UTC. -/
def gmtime (seconds : Int) : Tm :=
  let day := epoch + seconds / 86400
  let rest := seconds % 86400
  { sec := rest % 60
    min := rest / 60 % 60
    hour := rest / 3600
    mday := (dateOf day).day
    mon := (dateOf day).month
    year := (dateOf day).year - 1900
    wday := weekday day
    yday := dayOfYear day
    isdst := 0 }

/-- The seconds of a broken-down time in UTC; months beyond the year are carried over. -/
def timegm (tm : Tm) : Int :=
  let day := daysBefore (tm.year + 1900 + tm.mon / 12) (tm.mon % 12).toNat + (tm.mday - 1)
  (((day - epoch) * 24 + tm.hour) * 60 + tm.min) * 60 + tm.sec

theorem gmtime_normal (seconds : Int) : (gmtime seconds).Normal := by
  have hday := dateOf_day (epoch + seconds / 86400)
  have hmonth := dateOf_month_lt (epoch + seconds / 86400)
  constructor
  all_goals
    simp only [gmtime]
    omega

theorem timegm_gmtime (seconds wday yday : Int) :
    timegm { gmtime seconds with wday := wday, yday := yday } = seconds := by
  have hmonth := dateOf_month_lt (epoch + seconds / 86400)
  have hcarry : ((dateOf (epoch + seconds / 86400)).month : Int) / 12 = 0 := by omega
  have hwithin : ((dateOf (epoch + seconds / 86400)).month : Int) % 12 =
      (dateOf (epoch + seconds / 86400)).month := by omega
  have hday := daysBefore_dateOf (epoch + seconds / 86400)
  simp only [timegm, gmtime, hcarry, hwithin, Int.toNat_natCast, Int.sub_add_cancel, Int.add_zero,
    hday]
  omega

/-- A zone whose clocks are ahead of UTC by the offset. -/
def fixedOffset (offset : Int) : CLibrary where
  brokenDown seconds := gmtime (seconds + offset)
  normal seconds := gmtime_normal (seconds + offset)
  mktime tm := timegm tm - offset
  staticTm := 0

theorem fixedZone_fixedOffset (offset : Int) : FixedZone (fixedOffset offset) where
  standard _ := rfl
  mktime_brokenDown seconds wday yday := by
    have hinverse := timegm_gmtime (seconds + offset) wday yday
    change timegm { gmtime (seconds + offset) with wday := wday, yday := yday } - offset = seconds
    rw [hinverse, Int.add_sub_cancel]

example : gmtime 951782400 =
    { sec := 0, min := 0, hour := 0, mday := 29, mon := 1, year := 100, wday := 2, yday := 59,
      isdst := 0 } := by decide

end Wnet.DateTime
