import SpectrumShare.Scenario

/-! # The demo scenario

One incumbent of every kind stands around a site, and random grants around it are dealt out in turn to
the local authority and its peers. -/
namespace SpectrumShare.Demo

open Scalar

/-- Where random values come from; a draw may be any value of the range it asks for. -/
structure Chance (σ α : Type) where
  /-- A number from the first bound up to but not the second. -/
  real : α → α → StateM σ α
  /-- A whole number between two bounds, both included. -/
  whole : Nat → Nat → StateM σ Nat
  /-- True with a probability in percent. -/
  flip : Nat → StateM σ Bool

variable {σ α : Type} [Scalar α]

/-- A number with places after the point. -/
def decimal (digits : Int) (places : Nat) : α := ((digits : Int) : α) / ((Nat.pow 10 places : Nat) : α)

def site : Position α := ⟨decimal 366 1, decimal (-1219) 1⟩

def channelWidth : α := megahertz 5

def channelCount : Nat := 30

def minRange : α := ((500 : Nat) : α)

def maxRange : α := ((30000 : Nat) : α)

/-- The first ones in three digits, later ones in as many as they need. -/
def grantId (index : Nat) : String :=
  let digits := toString index
  "CBSD-" ++ String.ofList (List.replicate (3 - digits.length) '0') ++ digits

def eirpRange : Category → Nat × Nat
  | .a => (20, 30)
  | .b => (30, 47)

def channels (first count : Nat) : FrequencyRange α :=
  let low := FrequencyRange.cbrs.low + ((first : Nat) : α) * channelWidth
  ⟨low, low + ((count : Nat) : α) * channelWidth⟩

def randomGrant [Trigonometry α] (chance : Chance σ α) (index : Nat) : StateM σ (Grant α) := do
  let bearing ← chance.real ((0 : Nat) : α) Sphere.fullTurn
  let range ← chance.real minRange maxRange
  let first ← chance.whole 0 (channelCount - 2)
  let count ← chance.whole 1 4
  let category := if ← chance.flip 30 then Category.a else Category.b
  let (least, greatest) := eirpRange category
  let eirp ← chance.whole least greatest
  let height ← chance.real ((3 : Nat) : α) ((25 : Nat) : α)
  return {
    id := grantId index
    position := Sphere.offset site range (Sphere.toRadians bearing)
    height := height
    maxEirp := ((eirp : Nat) : α)
    range := channels first (min count (channelCount - first))
    category := category
    managed := true }

/-- What falls to one of some holders when items are dealt out in turn. -/
def share {ν : Type} (holders holder : Nat) (items : List ν) : List ν :=
  (items.zipIdx.filter fun item => item.2 % holders == holder).map (·.1)

def deal {ν : Type} (holders : Nat) (items : List ν) : List (List ν) :=
  (List.range holders).map fun holder => share holders holder items

/-- What a sector antenna loses so many degrees off its axis. -/
def sectorLoss (degrees : Nat) : α :=
  let off := ((degrees : Nat) : α) / ((65 : Nat) : α)
  least (((12 : Nat) : α) * (off * off)) ((25 : Nat) : α)

def zone (corner : Position α) : List (Position α) :=
  let side := decimal 2 3
  let east := corner.longitude + side
  let north := corner.latitude + side
  [corner, ⟨corner.latitude, east⟩, ⟨north, east⟩, ⟨north, corner.longitude⟩, corner]

def near [Trigonometry α] (metres degrees : Nat) : Position α :=
  Sphere.offset site ((metres : Nat) : α) (Sphere.toRadians ((degrees : Nat) : α))

def sensor [Trigonometry α] : RadarSensor α where
  id := "ESC-DEMO"
  position := near 2000 0
  height := ((30 : Nat) : α)
  azimuth := ((270 : Nat) : α)
  gain := ((12 : Nat) : α)
  pattern := (List.range 360).map fun a => ⟨((a : Nat) : α), -sectorLoss (min a (360 - a))⟩

def station [Trigonometry α] : EarthStation α where
  id := "FSS-DEMO"
  position := near 5000 90
  height := ((8 : Nat) : α)
  gain := ((45 : Nat) : α)
  azimuth := ((200 : Nat) : α)
  elevation := ((25 : Nat) : α)
  range := some ⟨megahertz 3650, megahertz 4200⟩
  telemetry := some true

def licence : Licence α := ⟨"PAL-DEMO-1", megahertz 3600, megahertz 3610⟩

def entities [Trigonometry α] : List (Entity α) :=
  [.esc sensor,
    .ppa ⟨"PPA-DEMO", zone (near 3000 180), some .suburban, [(licence (α := α)).id]⟩,
    .gwpz ⟨"GWPZ-DEMO", zone (near 4000 270), some .rural, some ⟨megahertz 3650, megahertz 3700⟩⟩,
    .fssCochannel station,
    .fssBlocking station]

/-- A scenario of so many grants among the local authority and some peers. -/
def scenario [Trigonometry α] (chance : Chance σ α) (grants peers : Nat) :
    StateM σ (Scenario α) := do
  let dealt := deal (peers + 1) (← (List.range grants).mapM (randomGrant chance))
  return {
    own := dealt.headD []
    others := dealt.tail
    entities := entities
    licences := [licence]
    rules := none }

/-- Whether a grant keeps the limits of the demo: its distance from the site, whole channels inside
the band, whole dB in the range of its category, and its height. -/
def isInLimits [Trigonometry α] (g : Grant α) : Bool :=
  let distance := Sphere.distance site g.position
  let slack := decimal 1 3
  let isWhole (x : α) : Bool := same x ((round x : Int) : α)
  let count := g.range.width / channelWidth
  let (low, high) := eirpRange g.category
  decide (minRange - slack ≤ distance ∧ distance ≤ maxRange + slack) &&
    decide (FrequencyRange.cbrs.low ≤ g.range.low ∧ g.range.high ≤ FrequencyRange.cbrs.high) &&
    isWhole ((g.range.low - FrequencyRange.cbrs.low) / channelWidth) && isWhole count &&
    decide (((1 : Nat) : α) ≤ count ∧ count ≤ ((4 : Nat) : α)) &&
    isWhole g.maxEirp && decide (((low : Nat) : α) ≤ g.maxEirp ∧ g.maxEirp ≤ ((high : Nat) : α)) &&
    decide (((3 : Nat) : α) ≤ g.height ∧ g.height < ((25 : Nat) : α)) && g.managed

end SpectrumShare.Demo
