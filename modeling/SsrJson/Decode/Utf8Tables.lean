/-!
# The shuffle tables of the UTF-8 reader

`utils/utf8_tables.c`. A mask of twelve bytes that end code points selects a row of the shuffle
table, which puts the bytes of six code points of at most two bytes each side by side.
-/

namespace SsrJson.Decode

/-- `_Utf8ToUcsShuffle`; 255 selects a zero. -/
def utf8ToUcsShuffle : List (List Nat) :=
  [[0, 255, 1, 255, 2, 255, 3, 255, 4, 255, 5, 255, 0, 0, 0, 0],
   [0, 255, 1, 255, 2, 255, 3, 255, 4, 255, 6, 5, 0, 0, 0, 0],
   [0, 255, 1, 255, 2, 255, 3, 255, 5, 4, 6, 255, 0, 0, 0, 0],
   [0, 255, 1, 255, 2, 255, 3, 255, 5, 4, 7, 6, 0, 0, 0, 0],
   [0, 255, 1, 255, 2, 255, 4, 3, 5, 255, 6, 255, 0, 0, 0, 0],
   [0, 255, 1, 255, 2, 255, 4, 3, 5, 255, 7, 6, 0, 0, 0, 0],
   [0, 255, 1, 255, 2, 255, 4, 3, 6, 5, 7, 255, 0, 0, 0, 0],
   [0, 255, 1, 255, 2, 255, 4, 3, 6, 5, 8, 7, 0, 0, 0, 0],
   [0, 255, 1, 255, 3, 2, 4, 255, 5, 255, 6, 255, 0, 0, 0, 0],
   [0, 255, 1, 255, 3, 2, 4, 255, 5, 255, 7, 6, 0, 0, 0, 0],
   [0, 255, 1, 255, 3, 2, 4, 255, 6, 5, 7, 255, 0, 0, 0, 0],
   [0, 255, 1, 255, 3, 2, 4, 255, 6, 5, 8, 7, 0, 0, 0, 0],
   [0, 255, 1, 255, 3, 2, 5, 4, 6, 255, 7, 255, 0, 0, 0, 0],
   [0, 255, 1, 255, 3, 2, 5, 4, 6, 255, 8, 7, 0, 0, 0, 0],
   [0, 255, 1, 255, 3, 2, 5, 4, 7, 6, 8, 255, 0, 0, 0, 0],
   [0, 255, 1, 255, 3, 2, 5, 4, 7, 6, 9, 8, 0, 0, 0, 0],
   [0, 255, 2, 1, 3, 255, 4, 255, 5, 255, 6, 255, 0, 0, 0, 0],
   [0, 255, 2, 1, 3, 255, 4, 255, 5, 255, 7, 6, 0, 0, 0, 0],
   [0, 255, 2, 1, 3, 255, 4, 255, 6, 5, 7, 255, 0, 0, 0, 0],
   [0, 255, 2, 1, 3, 255, 4, 255, 6, 5, 8, 7, 0, 0, 0, 0],
   [0, 255, 2, 1, 3, 255, 5, 4, 6, 255, 7, 255, 0, 0, 0, 0],
   [0, 255, 2, 1, 3, 255, 5, 4, 6, 255, 8, 7, 0, 0, 0, 0],
   [0, 255, 2, 1, 3, 255, 5, 4, 7, 6, 8, 255, 0, 0, 0, 0],
   [0, 255, 2, 1, 3, 255, 5, 4, 7, 6, 9, 8, 0, 0, 0, 0],
   [0, 255, 2, 1, 4, 3, 5, 255, 6, 255, 7, 255, 0, 0, 0, 0],
   [0, 255, 2, 1, 4, 3, 5, 255, 6, 255, 8, 7, 0, 0, 0, 0],
   [0, 255, 2, 1, 4, 3, 5, 255, 7, 6, 8, 255, 0, 0, 0, 0],
   [0, 255, 2, 1, 4, 3, 5, 255, 7, 6, 9, 8, 0, 0, 0, 0],
   [0, 255, 2, 1, 4, 3, 6, 5, 7, 255, 8, 255, 0, 0, 0, 0],
   [0, 255, 2, 1, 4, 3, 6, 5, 7, 255, 9, 8, 0, 0, 0, 0],
   [0, 255, 2, 1, 4, 3, 6, 5, 8, 7, 9, 255, 0, 0, 0, 0],
   [0, 255, 2, 1, 4, 3, 6, 5, 8, 7, 10, 9, 0, 0, 0, 0],
   [1, 0, 2, 255, 3, 255, 4, 255, 5, 255, 6, 255, 0, 0, 0, 0],
   [1, 0, 2, 255, 3, 255, 4, 255, 5, 255, 7, 6, 0, 0, 0, 0],
   [1, 0, 2, 255, 3, 255, 4, 255, 6, 5, 7, 255, 0, 0, 0, 0],
   [1, 0, 2, 255, 3, 255, 4, 255, 6, 5, 8, 7, 0, 0, 0, 0],
   [1, 0, 2, 255, 3, 255, 5, 4, 6, 255, 7, 255, 0, 0, 0, 0],
   [1, 0, 2, 255, 3, 255, 5, 4, 6, 255, 8, 7, 0, 0, 0, 0],
   [1, 0, 2, 255, 3, 255, 5, 4, 7, 6, 8, 255, 0, 0, 0, 0],
   [1, 0, 2, 255, 3, 255, 5, 4, 7, 6, 9, 8, 0, 0, 0, 0],
   [1, 0, 2, 255, 4, 3, 5, 255, 6, 255, 7, 255, 0, 0, 0, 0],
   [1, 0, 2, 255, 4, 3, 5, 255, 6, 255, 8, 7, 0, 0, 0, 0],
   [1, 0, 2, 255, 4, 3, 5, 255, 7, 6, 8, 255, 0, 0, 0, 0],
   [1, 0, 2, 255, 4, 3, 5, 255, 7, 6, 9, 8, 0, 0, 0, 0],
   [1, 0, 2, 255, 4, 3, 6, 5, 7, 255, 8, 255, 0, 0, 0, 0],
   [1, 0, 2, 255, 4, 3, 6, 5, 7, 255, 9, 8, 0, 0, 0, 0],
   [1, 0, 2, 255, 4, 3, 6, 5, 8, 7, 9, 255, 0, 0, 0, 0],
   [1, 0, 2, 255, 4, 3, 6, 5, 8, 7, 10, 9, 0, 0, 0, 0],
   [1, 0, 3, 2, 4, 255, 5, 255, 6, 255, 7, 255, 0, 0, 0, 0],
   [1, 0, 3, 2, 4, 255, 5, 255, 6, 255, 8, 7, 0, 0, 0, 0],
   [1, 0, 3, 2, 4, 255, 5, 255, 7, 6, 8, 255, 0, 0, 0, 0],
   [1, 0, 3, 2, 4, 255, 5, 255, 7, 6, 9, 8, 0, 0, 0, 0],
   [1, 0, 3, 2, 4, 255, 6, 5, 7, 255, 8, 255, 0, 0, 0, 0],
   [1, 0, 3, 2, 4, 255, 6, 5, 7, 255, 9, 8, 0, 0, 0, 0],
   [1, 0, 3, 2, 4, 255, 6, 5, 8, 7, 9, 255, 0, 0, 0, 0],
   [1, 0, 3, 2, 4, 255, 6, 5, 8, 7, 10, 9, 0, 0, 0, 0],
   [1, 0, 3, 2, 5, 4, 6, 255, 7, 255, 8, 255, 0, 0, 0, 0],
   [1, 0, 3, 2, 5, 4, 6, 255, 7, 255, 9, 8, 0, 0, 0, 0],
   [1, 0, 3, 2, 5, 4, 6, 255, 8, 7, 9, 255, 0, 0, 0, 0],
   [1, 0, 3, 2, 5, 4, 6, 255, 8, 7, 10, 9, 0, 0, 0, 0],
   [1, 0, 3, 2, 5, 4, 7, 6, 8, 255, 9, 255, 0, 0, 0, 0],
   [1, 0, 3, 2, 5, 4, 7, 6, 8, 255, 10, 9, 0, 0, 0, 0],
   [1, 0, 3, 2, 5, 4, 7, 6, 9, 8, 10, 255, 0, 0, 0, 0],
   [1, 0, 3, 2, 5, 4, 7, 6, 9, 8, 11, 10, 0, 0, 0, 0]]

/-- `_Utf8ToUcsIndex`, in rows of 64: the row of the shuffle table and how many bytes the code points
take. -/
def utf8ToUcsIndex : List (List (Nat × Nat)) :=
  [[(209, 12), (209, 12), (209, 12), (209, 12), (209, 12), (209, 12), (209, 12), (145, 3),
    (209, 12), (209, 12), (209, 12), (146, 4), (209, 12), (149, 4), (161, 4), (64, 4), (209, 12),
    (209, 12), (209, 12), (147, 5), (209, 12), (150, 5), (162, 5), (65, 5), (209, 12), (153, 5),
    (165, 5), (67, 5), (177, 5), (73, 5), (91, 5), (64, 4), (209, 12), (209, 12), (209, 12),
    (148, 6), (209, 12), (151, 6), (163, 6), (66, 6), (209, 12), (154, 6), (166, 6), (68, 6),
    (178, 6), (74, 6), (92, 6), (64, 4), (209, 12), (157, 6), (169, 6), (70, 6), (181, 6), (76, 6),
    (94, 6), (65, 5), (193, 6), (82, 6), (100, 6), (67, 5), (118, 6), (73, 5), (91, 5), (0, 6)],
   [(209, 12), (209, 12), (209, 12), (209, 12), (209, 12), (152, 7), (164, 7), (145, 3), (209, 12),
    (155, 7), (167, 7), (69, 7), (179, 7), (75, 7), (93, 7), (64, 4), (209, 12), (158, 7),
    (170, 7), (71, 7), (182, 7), (77, 7), (95, 7), (65, 5), (194, 7), (83, 7), (101, 7), (67, 5),
    (119, 7), (73, 5), (91, 5), (1, 7), (209, 12), (209, 12), (173, 7), (148, 6), (185, 7),
    (79, 7), (97, 7), (66, 6), (197, 7), (85, 7), (103, 7), (68, 6), (121, 7), (74, 6), (92, 6),
    (2, 7), (209, 12), (157, 6), (109, 7), (70, 6), (127, 7), (76, 6), (94, 6), (4, 7), (193, 6),
    (82, 6), (100, 6), (8, 7), (118, 6), (16, 7), (32, 7), (0, 6)],
   [(209, 12), (209, 12), (209, 12), (209, 12), (209, 12), (209, 12), (209, 12), (145, 3),
    (209, 12), (156, 8), (168, 8), (146, 4), (180, 8), (149, 4), (161, 4), (64, 4), (209, 12),
    (159, 8), (171, 8), (72, 8), (183, 8), (78, 8), (96, 8), (65, 5), (195, 8), (84, 8), (102, 8),
    (67, 5), (120, 8), (73, 5), (91, 5), (64, 4), (209, 12), (209, 12), (174, 8), (148, 6),
    (186, 8), (80, 8), (98, 8), (66, 6), (198, 8), (86, 8), (104, 8), (68, 6), (122, 8), (74, 6),
    (92, 6), (3, 8), (209, 12), (157, 6), (110, 8), (70, 6), (128, 8), (76, 6), (94, 6), (5, 8),
    (193, 6), (82, 6), (100, 6), (9, 8), (118, 6), (17, 8), (33, 8), (0, 6)],
   [(209, 12), (209, 12), (209, 12), (209, 12), (189, 8), (152, 7), (164, 7), (145, 3), (201, 8),
    (88, 8), (106, 8), (69, 7), (124, 8), (75, 7), (93, 7), (64, 4), (209, 12), (158, 7), (112, 8),
    (71, 7), (130, 8), (77, 7), (95, 7), (6, 8), (194, 7), (83, 7), (101, 7), (10, 8), (119, 7),
    (18, 8), (34, 8), (1, 7), (209, 12), (209, 12), (173, 7), (148, 6), (136, 8), (79, 7), (97, 7),
    (66, 6), (197, 7), (85, 7), (103, 7), (12, 8), (121, 7), (20, 8), (36, 8), (2, 7), (209, 12),
    (157, 6), (109, 7), (70, 6), (127, 7), (24, 8), (40, 8), (4, 7), (193, 6), (82, 6), (48, 8),
    (8, 7), (118, 6), (16, 7), (32, 7), (0, 6)],
   [(209, 12), (209, 12), (209, 12), (209, 12), (209, 12), (209, 12), (209, 12), (145, 3),
    (209, 12), (209, 12), (209, 12), (146, 4), (209, 12), (149, 4), (161, 4), (64, 4), (209, 12),
    (160, 9), (172, 9), (147, 5), (184, 9), (150, 5), (162, 5), (65, 5), (196, 9), (153, 5),
    (165, 5), (67, 5), (177, 5), (73, 5), (91, 5), (64, 4), (209, 12), (209, 12), (175, 9),
    (148, 6), (187, 9), (81, 9), (99, 9), (66, 6), (199, 9), (87, 9), (105, 9), (68, 6), (123, 9),
    (74, 6), (92, 6), (64, 4), (209, 12), (157, 6), (111, 9), (70, 6), (129, 9), (76, 6), (94, 6),
    (65, 5), (193, 6), (82, 6), (100, 6), (67, 5), (118, 6), (73, 5), (91, 5), (0, 6)],
   [(209, 12), (209, 12), (209, 12), (209, 12), (190, 9), (152, 7), (164, 7), (145, 3), (202, 9),
    (89, 9), (107, 9), (69, 7), (125, 9), (75, 7), (93, 7), (64, 4), (209, 12), (158, 7), (113, 9),
    (71, 7), (131, 9), (77, 7), (95, 7), (7, 9), (194, 7), (83, 7), (101, 7), (11, 9), (119, 7),
    (19, 9), (35, 9), (1, 7), (209, 12), (209, 12), (173, 7), (148, 6), (137, 9), (79, 7), (97, 7),
    (66, 6), (197, 7), (85, 7), (103, 7), (13, 9), (121, 7), (21, 9), (37, 9), (2, 7), (209, 12),
    (157, 6), (109, 7), (70, 6), (127, 7), (25, 9), (41, 9), (4, 7), (193, 6), (82, 6), (49, 9),
    (8, 7), (118, 6), (16, 7), (32, 7), (0, 6)],
   [(209, 12), (209, 12), (209, 12), (209, 12), (209, 12), (209, 12), (209, 12), (145, 3),
    (205, 9), (156, 8), (168, 8), (146, 4), (180, 8), (149, 4), (161, 4), (64, 4), (209, 12),
    (159, 8), (115, 9), (72, 8), (133, 9), (78, 8), (96, 8), (65, 5), (195, 8), (84, 8), (102, 8),
    (67, 5), (120, 8), (73, 5), (91, 5), (64, 4), (209, 12), (209, 12), (174, 8), (148, 6),
    (139, 9), (80, 8), (98, 8), (66, 6), (198, 8), (86, 8), (104, 8), (14, 9), (122, 8), (22, 9),
    (38, 9), (3, 8), (209, 12), (157, 6), (110, 8), (70, 6), (128, 8), (26, 9), (42, 9), (5, 8),
    (193, 6), (82, 6), (50, 9), (9, 8), (118, 6), (17, 8), (33, 8), (0, 6)],
   [(209, 12), (209, 12), (209, 12), (209, 12), (189, 8), (152, 7), (164, 7), (145, 3), (201, 8),
    (88, 8), (106, 8), (69, 7), (124, 8), (75, 7), (93, 7), (64, 4), (209, 12), (158, 7), (112, 8),
    (71, 7), (130, 8), (28, 9), (44, 9), (6, 8), (194, 7), (83, 7), (52, 9), (10, 8), (119, 7),
    (18, 8), (34, 8), (1, 7), (209, 12), (209, 12), (173, 7), (148, 6), (136, 8), (79, 7), (97, 7),
    (66, 6), (197, 7), (85, 7), (56, 9), (12, 8), (121, 7), (20, 8), (36, 8), (2, 7), (209, 12),
    (157, 6), (109, 7), (70, 6), (127, 7), (24, 8), (40, 8), (4, 7), (193, 6), (82, 6), (48, 8),
    (8, 7), (118, 6), (16, 7), (32, 7), (0, 6)],
   [(209, 12), (209, 12), (209, 12), (209, 12), (209, 12), (209, 12), (209, 12), (145, 3),
    (209, 12), (209, 12), (209, 12), (146, 4), (209, 12), (149, 4), (161, 4), (64, 4), (209, 12),
    (209, 12), (209, 12), (147, 5), (209, 12), (150, 5), (162, 5), (65, 5), (209, 12), (153, 5),
    (165, 5), (67, 5), (177, 5), (73, 5), (91, 5), (64, 4), (209, 12), (209, 12), (176, 10),
    (148, 6), (188, 10), (151, 6), (163, 6), (66, 6), (200, 10), (154, 6), (166, 6), (68, 6),
    (178, 6), (74, 6), (92, 6), (64, 4), (209, 12), (157, 6), (169, 6), (70, 6), (181, 6), (76, 6),
    (94, 6), (65, 5), (193, 6), (82, 6), (100, 6), (67, 5), (118, 6), (73, 5), (91, 5), (0, 6)],
   [(209, 12), (209, 12), (209, 12), (209, 12), (191, 10), (152, 7), (164, 7), (145, 3), (203, 10),
    (90, 10), (108, 10), (69, 7), (126, 10), (75, 7), (93, 7), (64, 4), (209, 12), (158, 7),
    (114, 10), (71, 7), (132, 10), (77, 7), (95, 7), (65, 5), (194, 7), (83, 7), (101, 7), (67, 5),
    (119, 7), (73, 5), (91, 5), (1, 7), (209, 12), (209, 12), (173, 7), (148, 6), (138, 10),
    (79, 7), (97, 7), (66, 6), (197, 7), (85, 7), (103, 7), (68, 6), (121, 7), (74, 6), (92, 6),
    (2, 7), (209, 12), (157, 6), (109, 7), (70, 6), (127, 7), (76, 6), (94, 6), (4, 7), (193, 6),
    (82, 6), (100, 6), (8, 7), (118, 6), (16, 7), (32, 7), (0, 6)],
   [(209, 12), (209, 12), (209, 12), (209, 12), (209, 12), (209, 12), (209, 12), (145, 3),
    (206, 10), (156, 8), (168, 8), (146, 4), (180, 8), (149, 4), (161, 4), (64, 4), (209, 12),
    (159, 8), (116, 10), (72, 8), (134, 10), (78, 8), (96, 8), (65, 5), (195, 8), (84, 8),
    (102, 8), (67, 5), (120, 8), (73, 5), (91, 5), (64, 4), (209, 12), (209, 12), (174, 8),
    (148, 6), (140, 10), (80, 8), (98, 8), (66, 6), (198, 8), (86, 8), (104, 8), (15, 10),
    (122, 8), (23, 10), (39, 10), (3, 8), (209, 12), (157, 6), (110, 8), (70, 6), (128, 8),
    (27, 10), (43, 10), (5, 8), (193, 6), (82, 6), (51, 10), (9, 8), (118, 6), (17, 8), (33, 8),
    (0, 6)],
   [(209, 12), (209, 12), (209, 12), (209, 12), (189, 8), (152, 7), (164, 7), (145, 3), (201, 8),
    (88, 8), (106, 8), (69, 7), (124, 8), (75, 7), (93, 7), (64, 4), (209, 12), (158, 7), (112, 8),
    (71, 7), (130, 8), (29, 10), (45, 10), (6, 8), (194, 7), (83, 7), (53, 10), (10, 8), (119, 7),
    (18, 8), (34, 8), (1, 7), (209, 12), (209, 12), (173, 7), (148, 6), (136, 8), (79, 7), (97, 7),
    (66, 6), (197, 7), (85, 7), (57, 10), (12, 8), (121, 7), (20, 8), (36, 8), (2, 7), (209, 12),
    (157, 6), (109, 7), (70, 6), (127, 7), (24, 8), (40, 8), (4, 7), (193, 6), (82, 6), (48, 8),
    (8, 7), (118, 6), (16, 7), (32, 7), (0, 6)],
   [(209, 12), (209, 12), (209, 12), (209, 12), (209, 12), (209, 12), (209, 12), (145, 3),
    (209, 12), (209, 12), (209, 12), (146, 4), (209, 12), (149, 4), (161, 4), (64, 4), (209, 12),
    (160, 9), (172, 9), (147, 5), (184, 9), (150, 5), (162, 5), (65, 5), (196, 9), (153, 5),
    (165, 5), (67, 5), (177, 5), (73, 5), (91, 5), (64, 4), (209, 12), (209, 12), (175, 9),
    (148, 6), (142, 10), (81, 9), (99, 9), (66, 6), (199, 9), (87, 9), (105, 9), (68, 6), (123, 9),
    (74, 6), (92, 6), (64, 4), (209, 12), (157, 6), (111, 9), (70, 6), (129, 9), (76, 6), (94, 6),
    (65, 5), (193, 6), (82, 6), (100, 6), (67, 5), (118, 6), (73, 5), (91, 5), (0, 6)],
   [(209, 12), (209, 12), (209, 12), (209, 12), (190, 9), (152, 7), (164, 7), (145, 3), (202, 9),
    (89, 9), (107, 9), (69, 7), (125, 9), (75, 7), (93, 7), (64, 4), (209, 12), (158, 7), (113, 9),
    (71, 7), (131, 9), (30, 10), (46, 10), (7, 9), (194, 7), (83, 7), (54, 10), (11, 9), (119, 7),
    (19, 9), (35, 9), (1, 7), (209, 12), (209, 12), (173, 7), (148, 6), (137, 9), (79, 7), (97, 7),
    (66, 6), (197, 7), (85, 7), (58, 10), (13, 9), (121, 7), (21, 9), (37, 9), (2, 7), (209, 12),
    (157, 6), (109, 7), (70, 6), (127, 7), (25, 9), (41, 9), (4, 7), (193, 6), (82, 6), (49, 9),
    (8, 7), (118, 6), (16, 7), (32, 7), (0, 6)],
   [(209, 12), (209, 12), (209, 12), (209, 12), (209, 12), (209, 12), (209, 12), (145, 3),
    (205, 9), (156, 8), (168, 8), (146, 4), (180, 8), (149, 4), (161, 4), (64, 4), (209, 12),
    (159, 8), (115, 9), (72, 8), (133, 9), (78, 8), (96, 8), (65, 5), (195, 8), (84, 8), (102, 8),
    (67, 5), (120, 8), (73, 5), (91, 5), (64, 4), (209, 12), (209, 12), (174, 8), (148, 6),
    (139, 9), (80, 8), (98, 8), (66, 6), (198, 8), (86, 8), (60, 10), (14, 9), (122, 8), (22, 9),
    (38, 9), (3, 8), (209, 12), (157, 6), (110, 8), (70, 6), (128, 8), (26, 9), (42, 9), (5, 8),
    (193, 6), (82, 6), (50, 9), (9, 8), (118, 6), (17, 8), (33, 8), (0, 6)],
   [(209, 12), (209, 12), (209, 12), (209, 12), (189, 8), (152, 7), (164, 7), (145, 3), (201, 8),
    (88, 8), (106, 8), (69, 7), (124, 8), (75, 7), (93, 7), (64, 4), (209, 12), (158, 7), (112, 8),
    (71, 7), (130, 8), (28, 9), (44, 9), (6, 8), (194, 7), (83, 7), (52, 9), (10, 8), (119, 7),
    (18, 8), (34, 8), (1, 7), (209, 12), (209, 12), (173, 7), (148, 6), (136, 8), (79, 7), (97, 7),
    (66, 6), (197, 7), (85, 7), (56, 9), (12, 8), (121, 7), (20, 8), (36, 8), (2, 7), (209, 12),
    (157, 6), (109, 7), (70, 6), (127, 7), (24, 8), (40, 8), (4, 7), (193, 6), (82, 6), (48, 8),
    (8, 7), (118, 6), (16, 7), (32, 7), (0, 6)],
   [(209, 12), (209, 12), (209, 12), (209, 12), (209, 12), (209, 12), (209, 12), (145, 3),
    (209, 12), (209, 12), (209, 12), (146, 4), (209, 12), (149, 4), (161, 4), (64, 4), (209, 12),
    (209, 12), (209, 12), (147, 5), (209, 12), (150, 5), (162, 5), (65, 5), (209, 12), (153, 5),
    (165, 5), (67, 5), (177, 5), (73, 5), (91, 5), (64, 4), (209, 12), (209, 12), (209, 12),
    (148, 6), (209, 12), (151, 6), (163, 6), (66, 6), (209, 12), (154, 6), (166, 6), (68, 6),
    (178, 6), (74, 6), (92, 6), (64, 4), (209, 12), (157, 6), (169, 6), (70, 6), (181, 6), (76, 6),
    (94, 6), (65, 5), (193, 6), (82, 6), (100, 6), (67, 5), (118, 6), (73, 5), (91, 5), (0, 6)],
   [(209, 12), (209, 12), (209, 12), (209, 12), (192, 11), (152, 7), (164, 7), (145, 3), (204, 11),
    (155, 7), (167, 7), (69, 7), (179, 7), (75, 7), (93, 7), (64, 4), (209, 12), (158, 7),
    (170, 7), (71, 7), (182, 7), (77, 7), (95, 7), (65, 5), (194, 7), (83, 7), (101, 7), (67, 5),
    (119, 7), (73, 5), (91, 5), (1, 7), (209, 12), (209, 12), (173, 7), (148, 6), (185, 7),
    (79, 7), (97, 7), (66, 6), (197, 7), (85, 7), (103, 7), (68, 6), (121, 7), (74, 6), (92, 6),
    (2, 7), (209, 12), (157, 6), (109, 7), (70, 6), (127, 7), (76, 6), (94, 6), (4, 7), (193, 6),
    (82, 6), (100, 6), (8, 7), (118, 6), (16, 7), (32, 7), (0, 6)],
   [(209, 12), (209, 12), (209, 12), (209, 12), (209, 12), (209, 12), (209, 12), (145, 3),
    (207, 11), (156, 8), (168, 8), (146, 4), (180, 8), (149, 4), (161, 4), (64, 4), (209, 12),
    (159, 8), (117, 11), (72, 8), (135, 11), (78, 8), (96, 8), (65, 5), (195, 8), (84, 8),
    (102, 8), (67, 5), (120, 8), (73, 5), (91, 5), (64, 4), (209, 12), (209, 12), (174, 8),
    (148, 6), (141, 11), (80, 8), (98, 8), (66, 6), (198, 8), (86, 8), (104, 8), (68, 6), (122, 8),
    (74, 6), (92, 6), (3, 8), (209, 12), (157, 6), (110, 8), (70, 6), (128, 8), (76, 6), (94, 6),
    (5, 8), (193, 6), (82, 6), (100, 6), (9, 8), (118, 6), (17, 8), (33, 8), (0, 6)],
   [(209, 12), (209, 12), (209, 12), (209, 12), (189, 8), (152, 7), (164, 7), (145, 3), (201, 8),
    (88, 8), (106, 8), (69, 7), (124, 8), (75, 7), (93, 7), (64, 4), (209, 12), (158, 7), (112, 8),
    (71, 7), (130, 8), (77, 7), (95, 7), (6, 8), (194, 7), (83, 7), (101, 7), (10, 8), (119, 7),
    (18, 8), (34, 8), (1, 7), (209, 12), (209, 12), (173, 7), (148, 6), (136, 8), (79, 7), (97, 7),
    (66, 6), (197, 7), (85, 7), (103, 7), (12, 8), (121, 7), (20, 8), (36, 8), (2, 7), (209, 12),
    (157, 6), (109, 7), (70, 6), (127, 7), (24, 8), (40, 8), (4, 7), (193, 6), (82, 6), (48, 8),
    (8, 7), (118, 6), (16, 7), (32, 7), (0, 6)],
   [(209, 12), (209, 12), (209, 12), (209, 12), (209, 12), (209, 12), (209, 12), (145, 3),
    (209, 12), (209, 12), (209, 12), (146, 4), (209, 12), (149, 4), (161, 4), (64, 4), (209, 12),
    (160, 9), (172, 9), (147, 5), (184, 9), (150, 5), (162, 5), (65, 5), (196, 9), (153, 5),
    (165, 5), (67, 5), (177, 5), (73, 5), (91, 5), (64, 4), (209, 12), (209, 12), (175, 9),
    (148, 6), (143, 11), (81, 9), (99, 9), (66, 6), (199, 9), (87, 9), (105, 9), (68, 6), (123, 9),
    (74, 6), (92, 6), (64, 4), (209, 12), (157, 6), (111, 9), (70, 6), (129, 9), (76, 6), (94, 6),
    (65, 5), (193, 6), (82, 6), (100, 6), (67, 5), (118, 6), (73, 5), (91, 5), (0, 6)],
   [(209, 12), (209, 12), (209, 12), (209, 12), (190, 9), (152, 7), (164, 7), (145, 3), (202, 9),
    (89, 9), (107, 9), (69, 7), (125, 9), (75, 7), (93, 7), (64, 4), (209, 12), (158, 7), (113, 9),
    (71, 7), (131, 9), (31, 11), (47, 11), (7, 9), (194, 7), (83, 7), (55, 11), (11, 9), (119, 7),
    (19, 9), (35, 9), (1, 7), (209, 12), (209, 12), (173, 7), (148, 6), (137, 9), (79, 7), (97, 7),
    (66, 6), (197, 7), (85, 7), (59, 11), (13, 9), (121, 7), (21, 9), (37, 9), (2, 7), (209, 12),
    (157, 6), (109, 7), (70, 6), (127, 7), (25, 9), (41, 9), (4, 7), (193, 6), (82, 6), (49, 9),
    (8, 7), (118, 6), (16, 7), (32, 7), (0, 6)],
   [(209, 12), (209, 12), (209, 12), (209, 12), (209, 12), (209, 12), (209, 12), (145, 3),
    (205, 9), (156, 8), (168, 8), (146, 4), (180, 8), (149, 4), (161, 4), (64, 4), (209, 12),
    (159, 8), (115, 9), (72, 8), (133, 9), (78, 8), (96, 8), (65, 5), (195, 8), (84, 8), (102, 8),
    (67, 5), (120, 8), (73, 5), (91, 5), (64, 4), (209, 12), (209, 12), (174, 8), (148, 6),
    (139, 9), (80, 8), (98, 8), (66, 6), (198, 8), (86, 8), (61, 11), (14, 9), (122, 8), (22, 9),
    (38, 9), (3, 8), (209, 12), (157, 6), (110, 8), (70, 6), (128, 8), (26, 9), (42, 9), (5, 8),
    (193, 6), (82, 6), (50, 9), (9, 8), (118, 6), (17, 8), (33, 8), (0, 6)],
   [(209, 12), (209, 12), (209, 12), (209, 12), (189, 8), (152, 7), (164, 7), (145, 3), (201, 8),
    (88, 8), (106, 8), (69, 7), (124, 8), (75, 7), (93, 7), (64, 4), (209, 12), (158, 7), (112, 8),
    (71, 7), (130, 8), (28, 9), (44, 9), (6, 8), (194, 7), (83, 7), (52, 9), (10, 8), (119, 7),
    (18, 8), (34, 8), (1, 7), (209, 12), (209, 12), (173, 7), (148, 6), (136, 8), (79, 7), (97, 7),
    (66, 6), (197, 7), (85, 7), (56, 9), (12, 8), (121, 7), (20, 8), (36, 8), (2, 7), (209, 12),
    (157, 6), (109, 7), (70, 6), (127, 7), (24, 8), (40, 8), (4, 7), (193, 6), (82, 6), (48, 8),
    (8, 7), (118, 6), (16, 7), (32, 7), (0, 6)],
   [(209, 12), (209, 12), (209, 12), (209, 12), (209, 12), (209, 12), (209, 12), (145, 3),
    (209, 12), (209, 12), (209, 12), (146, 4), (209, 12), (149, 4), (161, 4), (64, 4), (209, 12),
    (209, 12), (209, 12), (147, 5), (209, 12), (150, 5), (162, 5), (65, 5), (209, 12), (153, 5),
    (165, 5), (67, 5), (177, 5), (73, 5), (91, 5), (64, 4), (209, 12), (209, 12), (176, 10),
    (148, 6), (188, 10), (151, 6), (163, 6), (66, 6), (200, 10), (154, 6), (166, 6), (68, 6),
    (178, 6), (74, 6), (92, 6), (64, 4), (209, 12), (157, 6), (169, 6), (70, 6), (181, 6), (76, 6),
    (94, 6), (65, 5), (193, 6), (82, 6), (100, 6), (67, 5), (118, 6), (73, 5), (91, 5), (0, 6)],
   [(209, 12), (209, 12), (209, 12), (209, 12), (191, 10), (152, 7), (164, 7), (145, 3), (203, 10),
    (90, 10), (108, 10), (69, 7), (126, 10), (75, 7), (93, 7), (64, 4), (209, 12), (158, 7),
    (114, 10), (71, 7), (132, 10), (77, 7), (95, 7), (65, 5), (194, 7), (83, 7), (101, 7), (67, 5),
    (119, 7), (73, 5), (91, 5), (1, 7), (209, 12), (209, 12), (173, 7), (148, 6), (138, 10),
    (79, 7), (97, 7), (66, 6), (197, 7), (85, 7), (103, 7), (68, 6), (121, 7), (74, 6), (92, 6),
    (2, 7), (209, 12), (157, 6), (109, 7), (70, 6), (127, 7), (76, 6), (94, 6), (4, 7), (193, 6),
    (82, 6), (100, 6), (8, 7), (118, 6), (16, 7), (32, 7), (0, 6)],
   [(209, 12), (209, 12), (209, 12), (209, 12), (209, 12), (209, 12), (209, 12), (145, 3),
    (206, 10), (156, 8), (168, 8), (146, 4), (180, 8), (149, 4), (161, 4), (64, 4), (209, 12),
    (159, 8), (116, 10), (72, 8), (134, 10), (78, 8), (96, 8), (65, 5), (195, 8), (84, 8),
    (102, 8), (67, 5), (120, 8), (73, 5), (91, 5), (64, 4), (209, 12), (209, 12), (174, 8),
    (148, 6), (140, 10), (80, 8), (98, 8), (66, 6), (198, 8), (86, 8), (62, 11), (15, 10),
    (122, 8), (23, 10), (39, 10), (3, 8), (209, 12), (157, 6), (110, 8), (70, 6), (128, 8),
    (27, 10), (43, 10), (5, 8), (193, 6), (82, 6), (51, 10), (9, 8), (118, 6), (17, 8), (33, 8),
    (0, 6)],
   [(209, 12), (209, 12), (209, 12), (209, 12), (189, 8), (152, 7), (164, 7), (145, 3), (201, 8),
    (88, 8), (106, 8), (69, 7), (124, 8), (75, 7), (93, 7), (64, 4), (209, 12), (158, 7), (112, 8),
    (71, 7), (130, 8), (29, 10), (45, 10), (6, 8), (194, 7), (83, 7), (53, 10), (10, 8), (119, 7),
    (18, 8), (34, 8), (1, 7), (209, 12), (209, 12), (173, 7), (148, 6), (136, 8), (79, 7), (97, 7),
    (66, 6), (197, 7), (85, 7), (57, 10), (12, 8), (121, 7), (20, 8), (36, 8), (2, 7), (209, 12),
    (157, 6), (109, 7), (70, 6), (127, 7), (24, 8), (40, 8), (4, 7), (193, 6), (82, 6), (48, 8),
    (8, 7), (118, 6), (16, 7), (32, 7), (0, 6)],
   [(209, 12), (209, 12), (209, 12), (209, 12), (209, 12), (209, 12), (209, 12), (145, 3),
    (209, 12), (209, 12), (209, 12), (146, 4), (209, 12), (149, 4), (161, 4), (64, 4), (209, 12),
    (160, 9), (172, 9), (147, 5), (184, 9), (150, 5), (162, 5), (65, 5), (196, 9), (153, 5),
    (165, 5), (67, 5), (177, 5), (73, 5), (91, 5), (64, 4), (209, 12), (209, 12), (175, 9),
    (148, 6), (142, 10), (81, 9), (99, 9), (66, 6), (199, 9), (87, 9), (105, 9), (68, 6), (123, 9),
    (74, 6), (92, 6), (64, 4), (209, 12), (157, 6), (111, 9), (70, 6), (129, 9), (76, 6), (94, 6),
    (65, 5), (193, 6), (82, 6), (100, 6), (67, 5), (118, 6), (73, 5), (91, 5), (0, 6)],
   [(209, 12), (209, 12), (209, 12), (209, 12), (190, 9), (152, 7), (164, 7), (145, 3), (202, 9),
    (89, 9), (107, 9), (69, 7), (125, 9), (75, 7), (93, 7), (64, 4), (209, 12), (158, 7), (113, 9),
    (71, 7), (131, 9), (30, 10), (46, 10), (7, 9), (194, 7), (83, 7), (54, 10), (11, 9), (119, 7),
    (19, 9), (35, 9), (1, 7), (209, 12), (209, 12), (173, 7), (148, 6), (137, 9), (79, 7), (97, 7),
    (66, 6), (197, 7), (85, 7), (58, 10), (13, 9), (121, 7), (21, 9), (37, 9), (2, 7), (209, 12),
    (157, 6), (109, 7), (70, 6), (127, 7), (25, 9), (41, 9), (4, 7), (193, 6), (82, 6), (49, 9),
    (8, 7), (118, 6), (16, 7), (32, 7), (0, 6)],
   [(209, 12), (209, 12), (209, 12), (209, 12), (209, 12), (209, 12), (209, 12), (145, 3),
    (205, 9), (156, 8), (168, 8), (146, 4), (180, 8), (149, 4), (161, 4), (64, 4), (209, 12),
    (159, 8), (115, 9), (72, 8), (133, 9), (78, 8), (96, 8), (65, 5), (195, 8), (84, 8), (102, 8),
    (67, 5), (120, 8), (73, 5), (91, 5), (64, 4), (209, 12), (209, 12), (174, 8), (148, 6),
    (139, 9), (80, 8), (98, 8), (66, 6), (198, 8), (86, 8), (60, 10), (14, 9), (122, 8), (22, 9),
    (38, 9), (3, 8), (209, 12), (157, 6), (110, 8), (70, 6), (128, 8), (26, 9), (42, 9), (5, 8),
    (193, 6), (82, 6), (50, 9), (9, 8), (118, 6), (17, 8), (33, 8), (0, 6)],
   [(209, 12), (209, 12), (209, 12), (209, 12), (189, 8), (152, 7), (164, 7), (145, 3), (201, 8),
    (88, 8), (106, 8), (69, 7), (124, 8), (75, 7), (93, 7), (64, 4), (209, 12), (158, 7), (112, 8),
    (71, 7), (130, 8), (28, 9), (44, 9), (6, 8), (194, 7), (83, 7), (52, 9), (10, 8), (119, 7),
    (18, 8), (34, 8), (1, 7), (209, 12), (209, 12), (173, 7), (148, 6), (136, 8), (79, 7), (97, 7),
    (66, 6), (197, 7), (85, 7), (56, 9), (12, 8), (121, 7), (20, 8), (36, 8), (2, 7), (209, 12),
    (157, 6), (109, 7), (70, 6), (127, 7), (24, 8), (40, 8), (4, 7), (193, 6), (82, 6), (48, 8),
    (8, 7), (118, 6), (16, 7), (32, 7), (0, 6)],
   [(209, 12), (209, 12), (209, 12), (209, 12), (209, 12), (209, 12), (209, 12), (145, 3),
    (209, 12), (209, 12), (209, 12), (146, 4), (209, 12), (149, 4), (161, 4), (64, 4), (209, 12),
    (209, 12), (209, 12), (147, 5), (209, 12), (150, 5), (162, 5), (65, 5), (209, 12), (153, 5),
    (165, 5), (67, 5), (177, 5), (73, 5), (91, 5), (64, 4), (209, 12), (209, 12), (209, 12),
    (148, 6), (209, 12), (151, 6), (163, 6), (66, 6), (209, 12), (154, 6), (166, 6), (68, 6),
    (178, 6), (74, 6), (92, 6), (64, 4), (209, 12), (157, 6), (169, 6), (70, 6), (181, 6), (76, 6),
    (94, 6), (65, 5), (193, 6), (82, 6), (100, 6), (67, 5), (118, 6), (73, 5), (91, 5), (0, 6)],
   [(209, 12), (209, 12), (209, 12), (209, 12), (209, 12), (152, 7), (164, 7), (145, 3), (209, 12),
    (155, 7), (167, 7), (69, 7), (179, 7), (75, 7), (93, 7), (64, 4), (209, 12), (158, 7),
    (170, 7), (71, 7), (182, 7), (77, 7), (95, 7), (65, 5), (194, 7), (83, 7), (101, 7), (67, 5),
    (119, 7), (73, 5), (91, 5), (1, 7), (209, 12), (209, 12), (173, 7), (148, 6), (185, 7),
    (79, 7), (97, 7), (66, 6), (197, 7), (85, 7), (103, 7), (68, 6), (121, 7), (74, 6), (92, 6),
    (2, 7), (209, 12), (157, 6), (109, 7), (70, 6), (127, 7), (76, 6), (94, 6), (4, 7), (193, 6),
    (82, 6), (100, 6), (8, 7), (118, 6), (16, 7), (32, 7), (0, 6)],
   [(209, 12), (209, 12), (209, 12), (209, 12), (209, 12), (209, 12), (209, 12), (145, 3),
    (208, 12), (156, 8), (168, 8), (146, 4), (180, 8), (149, 4), (161, 4), (64, 4), (209, 12),
    (159, 8), (171, 8), (72, 8), (183, 8), (78, 8), (96, 8), (65, 5), (195, 8), (84, 8), (102, 8),
    (67, 5), (120, 8), (73, 5), (91, 5), (64, 4), (209, 12), (209, 12), (174, 8), (148, 6),
    (186, 8), (80, 8), (98, 8), (66, 6), (198, 8), (86, 8), (104, 8), (68, 6), (122, 8), (74, 6),
    (92, 6), (3, 8), (209, 12), (157, 6), (110, 8), (70, 6), (128, 8), (76, 6), (94, 6), (5, 8),
    (193, 6), (82, 6), (100, 6), (9, 8), (118, 6), (17, 8), (33, 8), (0, 6)],
   [(209, 12), (209, 12), (209, 12), (209, 12), (189, 8), (152, 7), (164, 7), (145, 3), (201, 8),
    (88, 8), (106, 8), (69, 7), (124, 8), (75, 7), (93, 7), (64, 4), (209, 12), (158, 7), (112, 8),
    (71, 7), (130, 8), (77, 7), (95, 7), (6, 8), (194, 7), (83, 7), (101, 7), (10, 8), (119, 7),
    (18, 8), (34, 8), (1, 7), (209, 12), (209, 12), (173, 7), (148, 6), (136, 8), (79, 7), (97, 7),
    (66, 6), (197, 7), (85, 7), (103, 7), (12, 8), (121, 7), (20, 8), (36, 8), (2, 7), (209, 12),
    (157, 6), (109, 7), (70, 6), (127, 7), (24, 8), (40, 8), (4, 7), (193, 6), (82, 6), (48, 8),
    (8, 7), (118, 6), (16, 7), (32, 7), (0, 6)],
   [(209, 12), (209, 12), (209, 12), (209, 12), (209, 12), (209, 12), (209, 12), (145, 3),
    (209, 12), (209, 12), (209, 12), (146, 4), (209, 12), (149, 4), (161, 4), (64, 4), (209, 12),
    (160, 9), (172, 9), (147, 5), (184, 9), (150, 5), (162, 5), (65, 5), (196, 9), (153, 5),
    (165, 5), (67, 5), (177, 5), (73, 5), (91, 5), (64, 4), (209, 12), (209, 12), (175, 9),
    (148, 6), (144, 12), (81, 9), (99, 9), (66, 6), (199, 9), (87, 9), (105, 9), (68, 6), (123, 9),
    (74, 6), (92, 6), (64, 4), (209, 12), (157, 6), (111, 9), (70, 6), (129, 9), (76, 6), (94, 6),
    (65, 5), (193, 6), (82, 6), (100, 6), (67, 5), (118, 6), (73, 5), (91, 5), (0, 6)],
   [(209, 12), (209, 12), (209, 12), (209, 12), (190, 9), (152, 7), (164, 7), (145, 3), (202, 9),
    (89, 9), (107, 9), (69, 7), (125, 9), (75, 7), (93, 7), (64, 4), (209, 12), (158, 7), (113, 9),
    (71, 7), (131, 9), (77, 7), (95, 7), (7, 9), (194, 7), (83, 7), (101, 7), (11, 9), (119, 7),
    (19, 9), (35, 9), (1, 7), (209, 12), (209, 12), (173, 7), (148, 6), (137, 9), (79, 7), (97, 7),
    (66, 6), (197, 7), (85, 7), (103, 7), (13, 9), (121, 7), (21, 9), (37, 9), (2, 7), (209, 12),
    (157, 6), (109, 7), (70, 6), (127, 7), (25, 9), (41, 9), (4, 7), (193, 6), (82, 6), (49, 9),
    (8, 7), (118, 6), (16, 7), (32, 7), (0, 6)],
   [(209, 12), (209, 12), (209, 12), (209, 12), (209, 12), (209, 12), (209, 12), (145, 3),
    (205, 9), (156, 8), (168, 8), (146, 4), (180, 8), (149, 4), (161, 4), (64, 4), (209, 12),
    (159, 8), (115, 9), (72, 8), (133, 9), (78, 8), (96, 8), (65, 5), (195, 8), (84, 8), (102, 8),
    (67, 5), (120, 8), (73, 5), (91, 5), (64, 4), (209, 12), (209, 12), (174, 8), (148, 6),
    (139, 9), (80, 8), (98, 8), (66, 6), (198, 8), (86, 8), (104, 8), (14, 9), (122, 8), (22, 9),
    (38, 9), (3, 8), (209, 12), (157, 6), (110, 8), (70, 6), (128, 8), (26, 9), (42, 9), (5, 8),
    (193, 6), (82, 6), (50, 9), (9, 8), (118, 6), (17, 8), (33, 8), (0, 6)],
   [(209, 12), (209, 12), (209, 12), (209, 12), (189, 8), (152, 7), (164, 7), (145, 3), (201, 8),
    (88, 8), (106, 8), (69, 7), (124, 8), (75, 7), (93, 7), (64, 4), (209, 12), (158, 7), (112, 8),
    (71, 7), (130, 8), (28, 9), (44, 9), (6, 8), (194, 7), (83, 7), (52, 9), (10, 8), (119, 7),
    (18, 8), (34, 8), (1, 7), (209, 12), (209, 12), (173, 7), (148, 6), (136, 8), (79, 7), (97, 7),
    (66, 6), (197, 7), (85, 7), (56, 9), (12, 8), (121, 7), (20, 8), (36, 8), (2, 7), (209, 12),
    (157, 6), (109, 7), (70, 6), (127, 7), (24, 8), (40, 8), (4, 7), (193, 6), (82, 6), (48, 8),
    (8, 7), (118, 6), (16, 7), (32, 7), (0, 6)],
   [(209, 12), (209, 12), (209, 12), (209, 12), (209, 12), (209, 12), (209, 12), (145, 3),
    (209, 12), (209, 12), (209, 12), (146, 4), (209, 12), (149, 4), (161, 4), (64, 4), (209, 12),
    (209, 12), (209, 12), (147, 5), (209, 12), (150, 5), (162, 5), (65, 5), (209, 12), (153, 5),
    (165, 5), (67, 5), (177, 5), (73, 5), (91, 5), (64, 4), (209, 12), (209, 12), (176, 10),
    (148, 6), (188, 10), (151, 6), (163, 6), (66, 6), (200, 10), (154, 6), (166, 6), (68, 6),
    (178, 6), (74, 6), (92, 6), (64, 4), (209, 12), (157, 6), (169, 6), (70, 6), (181, 6), (76, 6),
    (94, 6), (65, 5), (193, 6), (82, 6), (100, 6), (67, 5), (118, 6), (73, 5), (91, 5), (0, 6)],
   [(209, 12), (209, 12), (209, 12), (209, 12), (191, 10), (152, 7), (164, 7), (145, 3), (203, 10),
    (90, 10), (108, 10), (69, 7), (126, 10), (75, 7), (93, 7), (64, 4), (209, 12), (158, 7),
    (114, 10), (71, 7), (132, 10), (77, 7), (95, 7), (65, 5), (194, 7), (83, 7), (101, 7), (67, 5),
    (119, 7), (73, 5), (91, 5), (1, 7), (209, 12), (209, 12), (173, 7), (148, 6), (138, 10),
    (79, 7), (97, 7), (66, 6), (197, 7), (85, 7), (103, 7), (68, 6), (121, 7), (74, 6), (92, 6),
    (2, 7), (209, 12), (157, 6), (109, 7), (70, 6), (127, 7), (76, 6), (94, 6), (4, 7), (193, 6),
    (82, 6), (100, 6), (8, 7), (118, 6), (16, 7), (32, 7), (0, 6)],
   [(209, 12), (209, 12), (209, 12), (209, 12), (209, 12), (209, 12), (209, 12), (145, 3),
    (206, 10), (156, 8), (168, 8), (146, 4), (180, 8), (149, 4), (161, 4), (64, 4), (209, 12),
    (159, 8), (116, 10), (72, 8), (134, 10), (78, 8), (96, 8), (65, 5), (195, 8), (84, 8),
    (102, 8), (67, 5), (120, 8), (73, 5), (91, 5), (64, 4), (209, 12), (209, 12), (174, 8),
    (148, 6), (140, 10), (80, 8), (98, 8), (66, 6), (198, 8), (86, 8), (63, 12), (15, 10),
    (122, 8), (23, 10), (39, 10), (3, 8), (209, 12), (157, 6), (110, 8), (70, 6), (128, 8),
    (27, 10), (43, 10), (5, 8), (193, 6), (82, 6), (51, 10), (9, 8), (118, 6), (17, 8), (33, 8),
    (0, 6)],
   [(209, 12), (209, 12), (209, 12), (209, 12), (189, 8), (152, 7), (164, 7), (145, 3), (201, 8),
    (88, 8), (106, 8), (69, 7), (124, 8), (75, 7), (93, 7), (64, 4), (209, 12), (158, 7), (112, 8),
    (71, 7), (130, 8), (29, 10), (45, 10), (6, 8), (194, 7), (83, 7), (53, 10), (10, 8), (119, 7),
    (18, 8), (34, 8), (1, 7), (209, 12), (209, 12), (173, 7), (148, 6), (136, 8), (79, 7), (97, 7),
    (66, 6), (197, 7), (85, 7), (57, 10), (12, 8), (121, 7), (20, 8), (36, 8), (2, 7), (209, 12),
    (157, 6), (109, 7), (70, 6), (127, 7), (24, 8), (40, 8), (4, 7), (193, 6), (82, 6), (48, 8),
    (8, 7), (118, 6), (16, 7), (32, 7), (0, 6)],
   [(209, 12), (209, 12), (209, 12), (209, 12), (209, 12), (209, 12), (209, 12), (145, 3),
    (209, 12), (209, 12), (209, 12), (146, 4), (209, 12), (149, 4), (161, 4), (64, 4), (209, 12),
    (160, 9), (172, 9), (147, 5), (184, 9), (150, 5), (162, 5), (65, 5), (196, 9), (153, 5),
    (165, 5), (67, 5), (177, 5), (73, 5), (91, 5), (64, 4), (209, 12), (209, 12), (175, 9),
    (148, 6), (142, 10), (81, 9), (99, 9), (66, 6), (199, 9), (87, 9), (105, 9), (68, 6), (123, 9),
    (74, 6), (92, 6), (64, 4), (209, 12), (157, 6), (111, 9), (70, 6), (129, 9), (76, 6), (94, 6),
    (65, 5), (193, 6), (82, 6), (100, 6), (67, 5), (118, 6), (73, 5), (91, 5), (0, 6)],
   [(209, 12), (209, 12), (209, 12), (209, 12), (190, 9), (152, 7), (164, 7), (145, 3), (202, 9),
    (89, 9), (107, 9), (69, 7), (125, 9), (75, 7), (93, 7), (64, 4), (209, 12), (158, 7), (113, 9),
    (71, 7), (131, 9), (30, 10), (46, 10), (7, 9), (194, 7), (83, 7), (54, 10), (11, 9), (119, 7),
    (19, 9), (35, 9), (1, 7), (209, 12), (209, 12), (173, 7), (148, 6), (137, 9), (79, 7), (97, 7),
    (66, 6), (197, 7), (85, 7), (58, 10), (13, 9), (121, 7), (21, 9), (37, 9), (2, 7), (209, 12),
    (157, 6), (109, 7), (70, 6), (127, 7), (25, 9), (41, 9), (4, 7), (193, 6), (82, 6), (49, 9),
    (8, 7), (118, 6), (16, 7), (32, 7), (0, 6)],
   [(209, 12), (209, 12), (209, 12), (209, 12), (209, 12), (209, 12), (209, 12), (145, 3),
    (205, 9), (156, 8), (168, 8), (146, 4), (180, 8), (149, 4), (161, 4), (64, 4), (209, 12),
    (159, 8), (115, 9), (72, 8), (133, 9), (78, 8), (96, 8), (65, 5), (195, 8), (84, 8), (102, 8),
    (67, 5), (120, 8), (73, 5), (91, 5), (64, 4), (209, 12), (209, 12), (174, 8), (148, 6),
    (139, 9), (80, 8), (98, 8), (66, 6), (198, 8), (86, 8), (60, 10), (14, 9), (122, 8), (22, 9),
    (38, 9), (3, 8), (209, 12), (157, 6), (110, 8), (70, 6), (128, 8), (26, 9), (42, 9), (5, 8),
    (193, 6), (82, 6), (50, 9), (9, 8), (118, 6), (17, 8), (33, 8), (0, 6)],
   [(209, 12), (209, 12), (209, 12), (209, 12), (189, 8), (152, 7), (164, 7), (145, 3), (201, 8),
    (88, 8), (106, 8), (69, 7), (124, 8), (75, 7), (93, 7), (64, 4), (209, 12), (158, 7), (112, 8),
    (71, 7), (130, 8), (28, 9), (44, 9), (6, 8), (194, 7), (83, 7), (52, 9), (10, 8), (119, 7),
    (18, 8), (34, 8), (1, 7), (209, 12), (209, 12), (173, 7), (148, 6), (136, 8), (79, 7), (97, 7),
    (66, 6), (197, 7), (85, 7), (56, 9), (12, 8), (121, 7), (20, 8), (36, 8), (2, 7), (209, 12),
    (157, 6), (109, 7), (70, 6), (127, 7), (24, 8), (40, 8), (4, 7), (193, 6), (82, 6), (48, 8),
    (8, 7), (118, 6), (16, 7), (32, 7), (0, 6)],
   [(209, 12), (209, 12), (209, 12), (209, 12), (209, 12), (209, 12), (209, 12), (145, 3),
    (209, 12), (209, 12), (209, 12), (146, 4), (209, 12), (149, 4), (161, 4), (64, 4), (209, 12),
    (209, 12), (209, 12), (147, 5), (209, 12), (150, 5), (162, 5), (65, 5), (209, 12), (153, 5),
    (165, 5), (67, 5), (177, 5), (73, 5), (91, 5), (64, 4), (209, 12), (209, 12), (209, 12),
    (148, 6), (209, 12), (151, 6), (163, 6), (66, 6), (209, 12), (154, 6), (166, 6), (68, 6),
    (178, 6), (74, 6), (92, 6), (64, 4), (209, 12), (157, 6), (169, 6), (70, 6), (181, 6), (76, 6),
    (94, 6), (65, 5), (193, 6), (82, 6), (100, 6), (67, 5), (118, 6), (73, 5), (91, 5), (0, 6)],
   [(209, 12), (209, 12), (209, 12), (209, 12), (192, 11), (152, 7), (164, 7), (145, 3), (204, 11),
    (155, 7), (167, 7), (69, 7), (179, 7), (75, 7), (93, 7), (64, 4), (209, 12), (158, 7),
    (170, 7), (71, 7), (182, 7), (77, 7), (95, 7), (65, 5), (194, 7), (83, 7), (101, 7), (67, 5),
    (119, 7), (73, 5), (91, 5), (1, 7), (209, 12), (209, 12), (173, 7), (148, 6), (185, 7),
    (79, 7), (97, 7), (66, 6), (197, 7), (85, 7), (103, 7), (68, 6), (121, 7), (74, 6), (92, 6),
    (2, 7), (209, 12), (157, 6), (109, 7), (70, 6), (127, 7), (76, 6), (94, 6), (4, 7), (193, 6),
    (82, 6), (100, 6), (8, 7), (118, 6), (16, 7), (32, 7), (0, 6)],
   [(209, 12), (209, 12), (209, 12), (209, 12), (209, 12), (209, 12), (209, 12), (145, 3),
    (207, 11), (156, 8), (168, 8), (146, 4), (180, 8), (149, 4), (161, 4), (64, 4), (209, 12),
    (159, 8), (117, 11), (72, 8), (135, 11), (78, 8), (96, 8), (65, 5), (195, 8), (84, 8),
    (102, 8), (67, 5), (120, 8), (73, 5), (91, 5), (64, 4), (209, 12), (209, 12), (174, 8),
    (148, 6), (141, 11), (80, 8), (98, 8), (66, 6), (198, 8), (86, 8), (104, 8), (68, 6), (122, 8),
    (74, 6), (92, 6), (3, 8), (209, 12), (157, 6), (110, 8), (70, 6), (128, 8), (76, 6), (94, 6),
    (5, 8), (193, 6), (82, 6), (100, 6), (9, 8), (118, 6), (17, 8), (33, 8), (0, 6)],
   [(209, 12), (209, 12), (209, 12), (209, 12), (189, 8), (152, 7), (164, 7), (145, 3), (201, 8),
    (88, 8), (106, 8), (69, 7), (124, 8), (75, 7), (93, 7), (64, 4), (209, 12), (158, 7), (112, 8),
    (71, 7), (130, 8), (77, 7), (95, 7), (6, 8), (194, 7), (83, 7), (101, 7), (10, 8), (119, 7),
    (18, 8), (34, 8), (1, 7), (209, 12), (209, 12), (173, 7), (148, 6), (136, 8), (79, 7), (97, 7),
    (66, 6), (197, 7), (85, 7), (103, 7), (12, 8), (121, 7), (20, 8), (36, 8), (2, 7), (209, 12),
    (157, 6), (109, 7), (70, 6), (127, 7), (24, 8), (40, 8), (4, 7), (193, 6), (82, 6), (48, 8),
    (8, 7), (118, 6), (16, 7), (32, 7), (0, 6)],
   [(209, 12), (209, 12), (209, 12), (209, 12), (209, 12), (209, 12), (209, 12), (145, 3),
    (209, 12), (209, 12), (209, 12), (146, 4), (209, 12), (149, 4), (161, 4), (64, 4), (209, 12),
    (160, 9), (172, 9), (147, 5), (184, 9), (150, 5), (162, 5), (65, 5), (196, 9), (153, 5),
    (165, 5), (67, 5), (177, 5), (73, 5), (91, 5), (64, 4), (209, 12), (209, 12), (175, 9),
    (148, 6), (143, 11), (81, 9), (99, 9), (66, 6), (199, 9), (87, 9), (105, 9), (68, 6), (123, 9),
    (74, 6), (92, 6), (64, 4), (209, 12), (157, 6), (111, 9), (70, 6), (129, 9), (76, 6), (94, 6),
    (65, 5), (193, 6), (82, 6), (100, 6), (67, 5), (118, 6), (73, 5), (91, 5), (0, 6)],
   [(209, 12), (209, 12), (209, 12), (209, 12), (190, 9), (152, 7), (164, 7), (145, 3), (202, 9),
    (89, 9), (107, 9), (69, 7), (125, 9), (75, 7), (93, 7), (64, 4), (209, 12), (158, 7), (113, 9),
    (71, 7), (131, 9), (31, 11), (47, 11), (7, 9), (194, 7), (83, 7), (55, 11), (11, 9), (119, 7),
    (19, 9), (35, 9), (1, 7), (209, 12), (209, 12), (173, 7), (148, 6), (137, 9), (79, 7), (97, 7),
    (66, 6), (197, 7), (85, 7), (59, 11), (13, 9), (121, 7), (21, 9), (37, 9), (2, 7), (209, 12),
    (157, 6), (109, 7), (70, 6), (127, 7), (25, 9), (41, 9), (4, 7), (193, 6), (82, 6), (49, 9),
    (8, 7), (118, 6), (16, 7), (32, 7), (0, 6)],
   [(209, 12), (209, 12), (209, 12), (209, 12), (209, 12), (209, 12), (209, 12), (145, 3),
    (205, 9), (156, 8), (168, 8), (146, 4), (180, 8), (149, 4), (161, 4), (64, 4), (209, 12),
    (159, 8), (115, 9), (72, 8), (133, 9), (78, 8), (96, 8), (65, 5), (195, 8), (84, 8), (102, 8),
    (67, 5), (120, 8), (73, 5), (91, 5), (64, 4), (209, 12), (209, 12), (174, 8), (148, 6),
    (139, 9), (80, 8), (98, 8), (66, 6), (198, 8), (86, 8), (61, 11), (14, 9), (122, 8), (22, 9),
    (38, 9), (3, 8), (209, 12), (157, 6), (110, 8), (70, 6), (128, 8), (26, 9), (42, 9), (5, 8),
    (193, 6), (82, 6), (50, 9), (9, 8), (118, 6), (17, 8), (33, 8), (0, 6)],
   [(209, 12), (209, 12), (209, 12), (209, 12), (189, 8), (152, 7), (164, 7), (145, 3), (201, 8),
    (88, 8), (106, 8), (69, 7), (124, 8), (75, 7), (93, 7), (64, 4), (209, 12), (158, 7), (112, 8),
    (71, 7), (130, 8), (28, 9), (44, 9), (6, 8), (194, 7), (83, 7), (52, 9), (10, 8), (119, 7),
    (18, 8), (34, 8), (1, 7), (209, 12), (209, 12), (173, 7), (148, 6), (136, 8), (79, 7), (97, 7),
    (66, 6), (197, 7), (85, 7), (56, 9), (12, 8), (121, 7), (20, 8), (36, 8), (2, 7), (209, 12),
    (157, 6), (109, 7), (70, 6), (127, 7), (24, 8), (40, 8), (4, 7), (193, 6), (82, 6), (48, 8),
    (8, 7), (118, 6), (16, 7), (32, 7), (0, 6)],
   [(209, 12), (209, 12), (209, 12), (209, 12), (209, 12), (209, 12), (209, 12), (145, 3),
    (209, 12), (209, 12), (209, 12), (146, 4), (209, 12), (149, 4), (161, 4), (64, 4), (209, 12),
    (209, 12), (209, 12), (147, 5), (209, 12), (150, 5), (162, 5), (65, 5), (209, 12), (153, 5),
    (165, 5), (67, 5), (177, 5), (73, 5), (91, 5), (64, 4), (209, 12), (209, 12), (176, 10),
    (148, 6), (188, 10), (151, 6), (163, 6), (66, 6), (200, 10), (154, 6), (166, 6), (68, 6),
    (178, 6), (74, 6), (92, 6), (64, 4), (209, 12), (157, 6), (169, 6), (70, 6), (181, 6), (76, 6),
    (94, 6), (65, 5), (193, 6), (82, 6), (100, 6), (67, 5), (118, 6), (73, 5), (91, 5), (0, 6)],
   [(209, 12), (209, 12), (209, 12), (209, 12), (191, 10), (152, 7), (164, 7), (145, 3), (203, 10),
    (90, 10), (108, 10), (69, 7), (126, 10), (75, 7), (93, 7), (64, 4), (209, 12), (158, 7),
    (114, 10), (71, 7), (132, 10), (77, 7), (95, 7), (65, 5), (194, 7), (83, 7), (101, 7), (67, 5),
    (119, 7), (73, 5), (91, 5), (1, 7), (209, 12), (209, 12), (173, 7), (148, 6), (138, 10),
    (79, 7), (97, 7), (66, 6), (197, 7), (85, 7), (103, 7), (68, 6), (121, 7), (74, 6), (92, 6),
    (2, 7), (209, 12), (157, 6), (109, 7), (70, 6), (127, 7), (76, 6), (94, 6), (4, 7), (193, 6),
    (82, 6), (100, 6), (8, 7), (118, 6), (16, 7), (32, 7), (0, 6)],
   [(209, 12), (209, 12), (209, 12), (209, 12), (209, 12), (209, 12), (209, 12), (145, 3),
    (206, 10), (156, 8), (168, 8), (146, 4), (180, 8), (149, 4), (161, 4), (64, 4), (209, 12),
    (159, 8), (116, 10), (72, 8), (134, 10), (78, 8), (96, 8), (65, 5), (195, 8), (84, 8),
    (102, 8), (67, 5), (120, 8), (73, 5), (91, 5), (64, 4), (209, 12), (209, 12), (174, 8),
    (148, 6), (140, 10), (80, 8), (98, 8), (66, 6), (198, 8), (86, 8), (62, 11), (15, 10),
    (122, 8), (23, 10), (39, 10), (3, 8), (209, 12), (157, 6), (110, 8), (70, 6), (128, 8),
    (27, 10), (43, 10), (5, 8), (193, 6), (82, 6), (51, 10), (9, 8), (118, 6), (17, 8), (33, 8),
    (0, 6)],
   [(209, 12), (209, 12), (209, 12), (209, 12), (189, 8), (152, 7), (164, 7), (145, 3), (201, 8),
    (88, 8), (106, 8), (69, 7), (124, 8), (75, 7), (93, 7), (64, 4), (209, 12), (158, 7), (112, 8),
    (71, 7), (130, 8), (29, 10), (45, 10), (6, 8), (194, 7), (83, 7), (53, 10), (10, 8), (119, 7),
    (18, 8), (34, 8), (1, 7), (209, 12), (209, 12), (173, 7), (148, 6), (136, 8), (79, 7), (97, 7),
    (66, 6), (197, 7), (85, 7), (57, 10), (12, 8), (121, 7), (20, 8), (36, 8), (2, 7), (209, 12),
    (157, 6), (109, 7), (70, 6), (127, 7), (24, 8), (40, 8), (4, 7), (193, 6), (82, 6), (48, 8),
    (8, 7), (118, 6), (16, 7), (32, 7), (0, 6)],
   [(209, 12), (209, 12), (209, 12), (209, 12), (209, 12), (209, 12), (209, 12), (145, 3),
    (209, 12), (209, 12), (209, 12), (146, 4), (209, 12), (149, 4), (161, 4), (64, 4), (209, 12),
    (160, 9), (172, 9), (147, 5), (184, 9), (150, 5), (162, 5), (65, 5), (196, 9), (153, 5),
    (165, 5), (67, 5), (177, 5), (73, 5), (91, 5), (64, 4), (209, 12), (209, 12), (175, 9),
    (148, 6), (142, 10), (81, 9), (99, 9), (66, 6), (199, 9), (87, 9), (105, 9), (68, 6), (123, 9),
    (74, 6), (92, 6), (64, 4), (209, 12), (157, 6), (111, 9), (70, 6), (129, 9), (76, 6), (94, 6),
    (65, 5), (193, 6), (82, 6), (100, 6), (67, 5), (118, 6), (73, 5), (91, 5), (0, 6)],
   [(209, 12), (209, 12), (209, 12), (209, 12), (190, 9), (152, 7), (164, 7), (145, 3), (202, 9),
    (89, 9), (107, 9), (69, 7), (125, 9), (75, 7), (93, 7), (64, 4), (209, 12), (158, 7), (113, 9),
    (71, 7), (131, 9), (30, 10), (46, 10), (7, 9), (194, 7), (83, 7), (54, 10), (11, 9), (119, 7),
    (19, 9), (35, 9), (1, 7), (209, 12), (209, 12), (173, 7), (148, 6), (137, 9), (79, 7), (97, 7),
    (66, 6), (197, 7), (85, 7), (58, 10), (13, 9), (121, 7), (21, 9), (37, 9), (2, 7), (209, 12),
    (157, 6), (109, 7), (70, 6), (127, 7), (25, 9), (41, 9), (4, 7), (193, 6), (82, 6), (49, 9),
    (8, 7), (118, 6), (16, 7), (32, 7), (0, 6)],
   [(209, 12), (209, 12), (209, 12), (209, 12), (209, 12), (209, 12), (209, 12), (145, 3),
    (205, 9), (156, 8), (168, 8), (146, 4), (180, 8), (149, 4), (161, 4), (64, 4), (209, 12),
    (159, 8), (115, 9), (72, 8), (133, 9), (78, 8), (96, 8), (65, 5), (195, 8), (84, 8), (102, 8),
    (67, 5), (120, 8), (73, 5), (91, 5), (64, 4), (209, 12), (209, 12), (174, 8), (148, 6),
    (139, 9), (80, 8), (98, 8), (66, 6), (198, 8), (86, 8), (60, 10), (14, 9), (122, 8), (22, 9),
    (38, 9), (3, 8), (209, 12), (157, 6), (110, 8), (70, 6), (128, 8), (26, 9), (42, 9), (5, 8),
    (193, 6), (82, 6), (50, 9), (9, 8), (118, 6), (17, 8), (33, 8), (0, 6)],
   [(209, 12), (209, 12), (209, 12), (209, 12), (189, 8), (152, 7), (164, 7), (145, 3), (201, 8),
    (88, 8), (106, 8), (69, 7), (124, 8), (75, 7), (93, 7), (64, 4), (209, 12), (158, 7), (112, 8),
    (71, 7), (130, 8), (28, 9), (44, 9), (6, 8), (194, 7), (83, 7), (52, 9), (10, 8), (119, 7),
    (18, 8), (34, 8), (1, 7), (209, 12), (209, 12), (173, 7), (148, 6), (136, 8), (79, 7), (97, 7),
    (66, 6), (197, 7), (85, 7), (56, 9), (12, 8), (121, 7), (20, 8), (36, 8), (2, 7), (209, 12),
    (157, 6), (109, 7), (70, 6), (127, 7), (24, 8), (40, 8), (4, 7), (193, 6), (82, 6), (48, 8),
    (8, 7), (118, 6), (16, 7), (32, 7), (0, 6)]]

end SsrJson.Decode
