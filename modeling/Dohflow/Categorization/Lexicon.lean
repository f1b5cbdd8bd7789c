/-
This file holds the words that merchant grouping knows: the heads and industry nouns that
no brand is, and the places that may trail one.
-/

import Mathlib.Data.List.Infix

namespace Dohflow.Categorization

/-- Leading words that never anchor a group alone. -/
def genericHeads : List String :=
  ["AMERICAN", "UNITED", "DELTA", "FIRST", "NATIONAL", "REPUBLIC", "BLUE", "GENERAL",
    "NATIONWIDE", "LIBERTY", "MUTUAL", "PACIFIC", "ATLANTIC", "CONTINENTAL", "SOUTHWEST",
    "FRONTIER", "STANDARD", "PREMIER", "SUMMIT", "STAR", "SUN", "CROWN", "ROYAL", "GOLDEN",
    "SILVER", "GREEN", "CENTRAL", "EASTERN", "WESTERN", "NORTHERN", "SOUTHERN", "CITY", "STATE",
    "METRO", "CAPITAL", "COMMUNITY", "PEOPLES", "SECURITY", "TRUST", "SAVINGS", "SQUARE", "NEW",
    "NORTH", "SOUTH", "EAST", "WEST", "GRAND", "UNION"]

/-- Industry nouns that never anchor a group alone. -/
def genericIndustry : List String :=
  ["PIZZA", "TACOS", "TACO", "BURGER", "BURGERS", "COFFEE", "DONUT", "DONUTS", "BAGEL", "BAGELS",
    "SUSHI", "NAILS", "LAUNDRY", "CLEANERS", "DELI", "WINGS", "GRILL", "CAFE", "KITCHEN", "BAKERY",
    "MARKET", "LIQUOR", "NUTRITION", "FITNESS", "DENTAL", "BARBER", "SALON", "AUTO", "FOODS",
    "MART", "EXPRESS", "DINER", "NOODLE", "RAMEN", "POKE", "JUICE", "SEAFOOD", "STEAKHOUSE",
    "BISTRO", "TAVERN", "BREWING", "BREWERY", "WINERY", "FLORIST"]

/-- Directions and venues that trail a brand. -/
def areaTokens : List String :=
  ["DOWNTOWN", "UPTOWN", "AIRPORT", "INTL", "INTERNATIONAL", "MALL", "CENTER", "CENTRE", "PLAZA",
    "TERMINAL", "OUTLET", "OUTLETS", "STATION", "STN", "MIDTOWN"]

/-- Abbreviations of metropolitan areas. -/
def metroAbbrevs : List String :=
  ["SF", "LA", "NYC", "DC", "ATL", "PHL", "PDX", "SLC", "DFW"]

/-- The names of states. -/
def usStates : List String :=
  ["ALABAMA", "ALASKA", "ARIZONA", "ARKANSAS", "CALIFORNIA", "COLORADO", "CONNECTICUT",
    "DELAWARE", "FLORIDA", "GEORGIA", "HAWAII", "IDAHO", "ILLINOIS", "INDIANA", "IOWA", "KANSAS",
    "KENTUCKY", "LOUISIANA", "MAINE", "MARYLAND", "MASSACHUSETTS", "MICHIGAN", "MINNESOTA",
    "MISSISSIPPI", "MISSOURI", "MONTANA", "NEBRASKA", "NEVADA", "OHIO", "OKLAHOMA", "OREGON",
    "PENNSYLVANIA", "TENNESSEE", "TEXAS", "UTAH", "VERMONT", "VIRGINIA", "WASHINGTON", "WISCONSIN",
    "WYOMING"]

/-- Cities of one token. -/
def usCitiesSingle : List String :=
  ["SEATTLE", "PORTLAND", "OAKLAND", "BERKELEY", "FREMONT", "DENVER", "BOULDER", "HOUSTON",
    "DALLAS", "AUSTIN", "CHICAGO", "MIAMI", "ATLANTA", "PHOENIX", "TUCSON", "SACRAMENTO", "FRESNO",
    "MODESTO", "STOCKTON", "OAKDALE", "PASADENA", "GLENDALE", "BURBANK", "IRVINE", "ANAHEIM",
    "OXNARD", "VENTURA", "TEMPE", "MESA", "CHANDLER", "SCOTTSDALE", "BOSTON", "CAMBRIDGE",
    "BROOKLYN", "QUEENS", "BRONX", "MANHATTAN", "PHILADELPHIA", "PITTSBURGH", "BALTIMORE",
    "RICHMOND", "CHARLOTTE", "RALEIGH", "DURHAM", "NASHVILLE", "MEMPHIS", "ORLANDO", "TAMPA",
    "JACKSONVILLE", "DETROIT", "CLEVELAND", "COLUMBUS", "CINCINNATI", "INDIANAPOLIS", "MILWAUKEE",
    "MINNEAPOLIS", "STPAUL", "KANSAS", "OMAHA", "TULSA", "ALBUQUERQUE", "ELPASO", "ARLINGTON",
    "PLANO", "FRISCO", "MCKINNEY", "DENTON", "WACO", "BELLEVUE", "REDMOND", "TACOMA", "SPOKANE",
    "EUGENE", "BEAVERTON", "HILLSBORO", "RENO", "HENDERSON", "BOISE", "OGDEN", "PROVO", "HONOLULU",
    "ANCHORAGE", "BUFFALO", "ROCHESTER", "SYRACUSE", "ALBANY", "HARTFORD", "STAMFORD", "NEWARK",
    "TRENTON", "PROVIDENCE", "WORCESTER", "SPRINGFIELD", "LOUISVILLE", "LEXINGTON", "BIRMINGHAM",
    "MONTGOMERY", "SAVANNAH", "AUGUSTA", "COLUMBIA", "GREENVILLE", "ASHEVILLE", "WICHITA",
    "TOPEKA", "LINCOLN", "MADISON", "GREENBAY", "DULUTH", "FARGO", "BILLINGS", "CHEYENNE"]

/-- Cities of several tokens, in the order they are tried. -/
def usCitiesMulti : List (List String) :=
  [["SAN", "FRANCISCO"], ["SAN", "JOSE"], ["SAN", "DIEGO"], ["SAN", "ANTONIO"],
    ["LOS", "ANGELES"], ["LAS", "VEGAS"], ["SANTA", "CLARA"], ["SANTA", "MONICA"],
    ["SANTA", "ANA"], ["SANTA", "BARBARA"], ["PALO", "ALTO"], ["MOUNTAIN", "VIEW"],
    ["SALT", "LAKE", "CITY"], ["NEW", "YORK"], ["NEW", "ORLEANS"], ["SAN", "MATEO"],
    ["SAN", "RAFAEL"], ["FORT", "WORTH"], ["FORT", "LAUDERDALE"], ["COLORADO", "SPRINGS"],
    ["LONG", "BEACH"], ["VIRGINIA", "BEACH"], ["KANSAS", "CITY"], ["OKLAHOMA", "CITY"],
    ["DALY", "CITY"], ["REDWOOD", "CITY"], ["UNION", "CITY"], ["SOUTH", "SAN", "FRANCISCO"]]

end Dohflow.Categorization
