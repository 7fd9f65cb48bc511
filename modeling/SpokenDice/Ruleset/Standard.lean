import SpokenDice.Ruleset.Basic

/-!
# The standard ruleset

The dice, weapons and spells that requests may name when no other ruleset is given.
-/

namespace SpokenDice.Ruleset

/-- The dice that go by a name, in every ruleset that is not given others. -/
def standardDice : List NamedDie :=
  [⟨"coin", 2⟩,
   ⟨"pyramid", 4⟩,
   ⟨"cube", 6⟩,
   ⟨"tetrahedron", 8⟩,
   ⟨"octahedron", 8⟩,
   ⟨"decahedron", 10⟩,
   ⟨"dodecahedron", 12⟩,
   ⟨"icosahedron", 20⟩,
   ⟨"saving throw", 20⟩,
   ⟨"skill check", 20⟩,
   ⟨"to hit", 20⟩,
   ⟨"death saving throw", 20⟩,
   ⟨"percentile", 100⟩,
   ⟨"percent", 100⟩]

/-- The weapons of the standard ruleset. -/
def standardWeapons : List Weapon :=
  [⟨"Club", "1d4"⟩,
   ⟨"Dagger", "1d4"⟩,
   ⟨"Greatclub", "1d8"⟩,
   ⟨"Handaxe", "1d6"⟩,
   ⟨"Javelin", "1d6"⟩,
   ⟨"Light hammer", "1d4"⟩,
   ⟨"Mace", "1d6"⟩,
   ⟨"Quarterstaff", "1d6"⟩,
   ⟨"Sickle", "1d4"⟩,
   ⟨"Spear", "1d6"⟩,
   ⟨"Crossbow, light", "1d8"⟩,
   ⟨"Dart", "1d4"⟩,
   ⟨"Shortbow", "1d6"⟩,
   ⟨"Sling", "1d4"⟩,
   ⟨"Battleaxe", "1d8"⟩,
   ⟨"Flail", "1d8"⟩,
   ⟨"Glaive", "1d10"⟩,
   ⟨"Greataxe", "1d12"⟩,
   ⟨"Greatsword", "2d6"⟩,
   ⟨"Halberd", "1d10"⟩,
   ⟨"Lance", "1d12"⟩,
   ⟨"Longsword", "1d8"⟩,
   ⟨"Maul", "2d6"⟩,
   ⟨"Morningstar", "1d8"⟩,
   ⟨"Pike", "1d10"⟩,
   ⟨"Rapier", "1d8"⟩,
   ⟨"Scimitar", "1d6"⟩,
   ⟨"Shortsword", "1d6"⟩,
   ⟨"Trident", "1d6"⟩,
   ⟨"War pick", "1d8"⟩,
   ⟨"Warhammer", "1d8"⟩,
   ⟨"Whip", "1d4"⟩,
   ⟨"Blowgun", "1"⟩,
   ⟨"Crossbow, hand", "1d6"⟩,
   ⟨"Crossbow, heavy", "1d10"⟩,
   ⟨"Longbow", "1d8"⟩]

/-- The spells of the standard ruleset. -/
def standardSpells : List Spell :=
  [⟨"Acid Splash", 0,
    "You hurl a bubble of acid. Choose one creature within range, or choose two creatures within "
      ++ "range that are within 5 feet of each other. A target must succeed on a Dexterity "
      ++ "saving throw or take 1d6 acid damage.",
    ""⟩,
   ⟨"Fire Bolt", 0,
    "You hurl a mote of fire at a creature or object within range. Make a ranged spell attack "
      ++ "against the target. On a hit, the target takes 1d10 fire damage.",
    ""⟩,
   ⟨"Light", 0,
    "You touch one object that is no larger than 10 feet in any dimension. Until the spell ends, "
      ++ "the object sheds bright light in a 20-foot radius and dim light for an additional 20 "
      ++ "feet.",
    ""⟩,
   ⟨"Magic Missile", 1,
    "You create three glowing darts of magical force. Each dart hits a creature of your choice "
      ++ "that you can see within range. A dart deals 1d4 + 1 force damage to its target. The "
      ++ "darts all strike simultaneously, and you can direct them to hit one creature or "
      ++ "several.",
    "When you cast this spell using a spell slot of 2nd level or higher, the spell creates one "
      ++ "more dart for each slot level above 1st."⟩,
   ⟨"Burning Hands", 1,
    "As you hold your hands with thumbs touching and fingers spread, a thin sheet of flames "
      ++ "shoots forth from your outstretched fingertips. Each creature in a 15-foot cone must "
      ++ "make a Dexterity saving throw. A creature takes 3d6 fire damage on a failed save, or "
      ++ "half as much damage on a successful one.",
    "When you cast this spell using a spell slot of 2nd level or higher, the damage increases by "
      ++ "1d6 for each slot level above 1st."⟩,
   ⟨"Thunderwave", 1,
    "A wave of thunderous force sweeps out from you. Each creature in a 15-foot cube originating "
      ++ "from you must make a Constitution saving throw. On a failed save, a creature takes 2d8 "
      ++ "thunder damage and is pushed 10 feet away from you.",
    "When you cast this spell using a spell slot of 2nd level or higher, the damage increases by "
      ++ "1d8 for each slot level above 1st."⟩,
   ⟨"Guiding Bolt", 1,
    "A flash of light streaks toward a creature of your choice within range. Make a ranged spell "
      ++ "attack against the target. On a hit, the target takes 4d6 radiant damage.",
    "When you cast this spell using a spell slot of 2nd level or higher, the damage increases by "
      ++ "1d6 for each slot level above 1st."⟩,
   ⟨"Cure Wounds", 1,
    "A creature you touch regains a number of hit points equal to 1d8 + your spellcasting "
      ++ "ability modifier.",
    "When you cast this spell using a spell slot of 2nd level or higher, the healing increases "
      ++ "by 1d8 for each slot level above 1st."⟩,
   ⟨"Healing Word", 1,
    "A creature of your choice that you can see within range regains hit points equal to 1d4 + "
      ++ "your spellcasting ability modifier.",
    "When you cast this spell using a spell slot of 2nd level or higher, the healing increases "
      ++ "by 1d4 for each slot level above 1st."⟩,
   ⟨"Inflict Wounds", 1,
    "Make a melee spell attack against a creature you can reach. On a hit, the target takes 3d10 "
      ++ "necrotic damage.",
    "When you cast this spell using a spell slot of 2nd level or higher, the damage increases by "
      ++ "1d10 for each slot level above 1st."⟩,
   ⟨"Witch Bolt", 1,
    "A beam of crackling, blue energy lances out toward a creature within range. Make a ranged "
      ++ "spell attack against that creature. On a hit, the target takes 1d12 lightning damage.",
    "When you cast this spell using a spell slot of 2nd level or higher, the initial damage "
      ++ "increases by 1d12 for each slot level above 1st."⟩,
   ⟨"Sleep", 1,
    "This spell sends creatures into a magical slumber. Roll 5d8; the total is how many hit "
      ++ "points of creatures this spell can affect.",
    "When you cast this spell using a spell slot of 2nd level or higher, roll an additional 2d8 "
      ++ "for each slot level above 1st."⟩,
   ⟨"Scorching Ray", 2,
    "You create three rays of fire and hurl them at targets within range. Make a ranged spell "
      ++ "attack for each ray. On a hit, the target takes 2d6 fire damage.",
    "When you cast this spell using a spell slot of 3rd level or higher, you create one "
      ++ "additional ray for each slot level above 2nd."⟩,
   ⟨"Shatter", 2,
    "A sudden loud ringing noise erupts from a point of your choice within range. Each creature "
      ++ "in a 10-foot-radius sphere centered on that point must make a Constitution saving "
      ++ "throw. A creature takes 3d8 thunder damage on a failed save, or half as much damage on "
      ++ "a successful one.",
    "When you cast this spell using a spell slot of 3rd level or higher, the damage increases by "
      ++ "1d8 for each slot level above 2nd."⟩,
   ⟨"Acid Arrow", 2,
    "A shimmering green arrow streaks toward a target within range and bursts in a spray of "
      ++ "acid. Make a ranged spell attack against the target. On a hit, the target takes 4d4 "
      ++ "acid damage immediately and 2d4 acid damage at the end of its next turn.",
    "When you cast this spell using a spell slot of 3rd level or higher, the damage (both "
      ++ "initial and later) increases by 1d4 for each slot level above 2nd."⟩,
   ⟨"Fireball", 3,
    "A bright streak flashes from your pointing finger to a point you choose within range and "
      ++ "then blossoms with a low roar into an explosion of flame. Each creature in a "
      ++ "20-foot-radius sphere centered on that point must make a Dexterity saving throw. A "
      ++ "target takes 8d6 fire damage on a failed save, or half as much damage on a successful "
      ++ "one.",
    "When you cast this spell using a spell slot of 4th level or higher, the damage increases by "
      ++ "1d6 for each slot level above 3rd."⟩,
   ⟨"Lightning Bolt", 3,
    "A stroke of lightning forming a line 100 feet long and 5 feet wide blasts out from you in a "
      ++ "direction you choose. Each creature in the line must make a Dexterity saving throw. A "
      ++ "creature takes 8d6 lightning damage on a failed save, or half as much damage on a "
      ++ "successful one.",
    "When you cast this spell using a spell slot of 4th level or higher, the damage increases by "
      ++ "1d6 for each slot level above 3rd."⟩,
   ⟨"Call Lightning", 3,
    "A storm cloud appears in the shape of a cylinder that is 10 feet tall with a 60-foot "
      ++ "radius. Each creature within 5 feet of the point you choose must make a Dexterity "
      ++ "saving throw. A creature takes 3d10 lightning damage on a failed save, or half as much "
      ++ "damage on a successful one.",
    "When you cast this spell using a spell slot of 4th or higher level, the damage increases by "
      ++ "1d10 for each slot level above 3rd."⟩,
   ⟨"Vampiric Touch", 3,
    "The touch of your shadow-wreathed hand can siphon life force from others to heal your "
      ++ "wounds. Make a melee spell attack against a creature within your reach. On a hit, the "
      ++ "target takes 3d6 necrotic damage.",
    "When you cast this spell using a spell slot of 4th level or higher, the damage increases by "
      ++ "1d6 for each slot level above 3rd."⟩,
   ⟨"Ice Storm", 4,
    "A hail of rock-hard ice pounds to the ground in a 20-foot-radius, 40-foot-high cylinder "
      ++ "centered on a point within range. Each creature in the cylinder must make a Dexterity "
      ++ "saving throw. A creature takes 2d8 bludgeoning damage and 4d6 cold damage on a failed "
      ++ "save, or half as much damage on a successful one.",
    "When you cast this spell using a spell slot of 5th level or higher, the bludgeoning damage "
      ++ "increases by 1d8 for each slot level above 4th."⟩,
   ⟨"Blight", 4,
    "Necromantic energy washes over a creature of your choice that you can see within range, "
      ++ "draining moisture and vitality from it. The target must make a Constitution saving "
      ++ "throw. The target takes 8d8 necrotic damage on a failed save, or half as much damage "
      ++ "on a successful one.",
    "When you cast this spell using a spell slot of 5th level or higher, the damage increases by "
      ++ "1d8 for each slot level above 4th."⟩,
   ⟨"Cone of Cold", 5,
    "A blast of cold air erupts from your hands. Each creature in a 60-foot cone must make a "
      ++ "Constitution saving throw. A creature takes 8d8 cold damage on a failed save, or half "
      ++ "as much damage on a successful one.",
    "When you cast this spell using a spell slot of 6th level or higher, the damage increases by "
      ++ "1d8 for each slot level above 5th."⟩,
   ⟨"Flame Strike", 5,
    "A vertical column of divine fire roars down from the heavens in a location you specify. "
      ++ "Each creature in a 10-foot-radius, 40-foot-high cylinder centered on a point within "
      ++ "range must make a Dexterity saving throw. A creature takes 4d6 fire damage and 4d6 "
      ++ "radiant damage on a failed save, or half as much damage on a successful one.",
    "When you cast this spell using a spell slot of 6th level or higher, the fire damage or the "
      ++ "radiant damage (your choice) increases by 1d6 for each slot level above 5th."⟩,
   ⟨"Disintegrate", 6,
    "A thin green ray springs from your pointing finger to a target that you can see within "
      ++ "range. The target must make a Dexterity saving throw. On a failed save, the target "
      ++ "takes 10d6 + 40 force damage. If this damage reduces the target to 0 hit points, it is "
      ++ "disintegrated.",
    "When you cast this spell using a spell slot of 7th level or higher, the damage increases by "
      ++ "3d6 for each slot level above 6th."⟩,
   ⟨"Chain Lightning", 6,
    "You create a bolt of lightning that arcs toward a target of your choice that you can see "
      ++ "within range. Three bolts then leap from that target to as many as three other "
      ++ "targets. A target must make a Dexterity saving throw. The target takes 10d8 lightning "
      ++ "damage on a failed save, or half as much damage on a successful one.",
    "When you cast this spell using a spell slot of 7th level or higher, one additional bolt "
      ++ "leaps from the first target to another target for each slot level above 6th."⟩,
   ⟨"Finger of Death", 7,
    "You send negative energy coursing through a creature that you can see within range, causing "
      ++ "it searing pain. The target must make a Constitution saving throw. It takes 7d8 + 30 "
      ++ "necrotic damage on a failed save, or half as much damage on a successful one.",
    ""⟩,
   ⟨"Meteor Swarm", 9,
    "Blazing orbs of fire plummet to the ground at four different points you can see within "
      ++ "range. Each creature in a 40-foot-radius sphere centered on each point you choose must "
      ++ "make a Dexterity saving throw. The sphere spreads around corners. A creature takes "
      ++ "20d6 fire damage and 20d6 bludgeoning damage on a failed save, or half as much damage "
      ++ "on a successful one.",
    ""⟩]

/-- The standard ruleset. -/
def standard : Ruleset where
  namedDice := standardDice
  weapons := standardWeapons
  spells := standardSpells

end SpokenDice.Ruleset
