import FormattedOutput.PowerTable.Word

/-!
# The stored powers of five

Every 26th power of five is stored with 125 bits, and every 26th inverse too. The powers below
`5 ^ 26` are stored whole. What lies between is rebuilt from these, and two bits for each power
say how much the rebuilt number has to be raised.
-/

namespace FormattedOutput.PowerTable

/-- How many bits a stored power has. -/
def storedBits : Nat := 125

/-- How far the stored powers stand apart. -/
def spacing : Nat := 26

/-- The powers `5 ^ 0` to `5 ^ 25`. -/
def smallPowers : List Nat :=
  [1, 5, 25, 125,
    625, 3125, 15625, 78125,
    390625, 1953125, 9765625, 48828125,
    244140625, 1220703125, 6103515625, 30517578125,
    152587890625, 762939453125, 3814697265625, 19073486328125,
    95367431640625, 476837158203125, 2384185791015625, 11920928955078125,
    59604644775390625, 298023223876953125]

/-- The leading bits of every 26th power of five, from `5 ^ 0` to `5 ^ 312`. -/
def splitPowers : List WordPair :=
  [⟨0, 1152921504606846976⟩, ⟨0, 1490116119384765625⟩,
    ⟨1032610780636961552, 1925929944387235853⟩, ⟨7910200175544436838, 1244603055572228341⟩,
    ⟨16941905809032713930, 1608611746708759036⟩, ⟨13024893955298202172, 2079081953128979843⟩,
    ⟨6607496772837067824, 1343575221513417750⟩, ⟨17332926989895652603, 1736530273035216783⟩,
    ⟨13037379183483547984, 2244412773384604712⟩, ⟨1605989338741628675, 1450417759929778918⟩,
    ⟨9630225068416591280, 1874621017369538693⟩, ⟨665883850346957067, 1211445438634777304⟩,
    ⟨14931890668723713708, 1565756531257009982⟩]

/-- The leading bits of the inverse of every 26th power of five, from `5 ^ 0` to `5 ^ 364`. Each is
rounded up. -/
def splitInverses : List WordPair :=
  [⟨1, 2305843009213693952⟩, ⟨5955668970331000884, 1784059615882449851⟩,
    ⟨8982663654677661702, 1380349269358112757⟩, ⟨7286864317269821294, 2135987035920910082⟩,
    ⟨7005857020398200553, 1652639921975621497⟩, ⟨17965325103354776697, 1278668206209430417⟩,
    ⟨8928596168509315048, 1978643211784836272⟩, ⟨10075671573058298858, 1530901034580419511⟩,
    ⟨597001226353042382, 1184477304306571148⟩, ⟨1527430471115325346, 1832889850782397517⟩,
    ⟨12533209867169019542, 1418129833677084982⟩, ⟨5577825024675947042, 2194449627517475473⟩,
    ⟨11006974540203867551, 1697873161311732311⟩, ⟨10313493231639821582, 1313665730009899186⟩,
    ⟨12701016819766672773, 2032799256770390445⟩]

/-- Two bits for each power of five, sixteen powers to a number. -/
def powerCorrections : List Nat :=
  [0x00000000, 0x00000000, 0x00000000, 0x00000000, 0x40000000, 0x59695995,
    0x55545555, 0x56555515, 0x41150504, 0x40555410, 0x44555145, 0x44504540,
    0x45555550, 0x40004000, 0x96440440, 0x55565565, 0x54454045, 0x40154151,
    0x55559155, 0x51405555, 0x00000105]

/-- Two bits for each inverse power of five, sixteen powers to a number. -/
def inverseCorrections : List Nat :=
  [0x54544554, 0x04055545, 0x10041000, 0x00400414, 0x40010000, 0x41155555,
    0x00000454, 0x00010044, 0x40000000, 0x44000041, 0x50454450, 0x55550054,
    0x51655554, 0x40004000, 0x01000001, 0x00010500, 0x51515411, 0x05555554,
    0x00000000]

end FormattedOutput.PowerTable
