/-!
# Example settings

A settings file that states what holds without one, apart from the log filter and the exam table.
-/

namespace DegreeProgress.Settings

def exampleText : String :=
"log_filter = \"degree_audit=info\"

[catalog]
path = \"catalog.json\"

[exams]
path = \"exams.json\"

[total_credits]
enabled = true
required = 120

[[total_credits.colleges]]
college = \"AG\"
eligibility = \"exclude-pe-and-intro\"

[[total_credits.colleges]]
college = \"AS1\"
eligibility = \"exclude-pe-and-intro\"

[[total_credits.colleges]]
college = \"BU\"
eligibility = \"exclude-pe-and-intro\"

[[total_credits.colleges]]
college = \"HE\"
eligibility = \"exclude-pe-and-intro\"

[[total_credits.colleges]]
college = \"IL\"
eligibility = \"exclude-pe-and-intro\"

[swim_test]
enabled = true
"

end DegreeProgress.Settings
